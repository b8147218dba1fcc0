import CmdTran.Lib.System
import CmdTran.Routing.Blocks

/-!
# Routing follows the history

Who gets a picture is a matter of what the clients have sent since they were added: the last login, and
the last login or reset. The table is compared with that. `AddClient` of a socket that is registered leaves
the old entry in the table, with what the earlier connection sent.
-/

namespace CmdTran

open Server (byteAt cameraIdAt isViewer clientTypePhone clientTypePC BadType)

/-! ## Sessions -/

/-- What happens to the clients, one at a time. -/
inductive ClientEvent where
  | addClient (sock : Nat) (conn : Conn)
  | quitClient (sock : Nat)
  | frame (sock : Nat) (frame : Block) (frameLen : Nat)

def frameCode (f : List UInt8) : UInt8 := f.getD 3 0

/-- The type byte of a login. -/
def loginType (f : List UInt8) : Option UInt8 :=
  if frameCode f = 0x00 then some (f.getD 4 0) else none

def bigEndian (hi lo : UInt8) : Nat := hi.toNat * 256 + lo.toNat

/-- The camera id that a login or a reset carries. -/
def carriedCameraId (f : List UInt8) : Option Nat :=
  if frameCode f = 0x00 then some (bigEndian (f.getD 5 0) (f.getD 6 0))
  else if frameCode f = 0x01 then some (bigEndian (f.getD 4 0) (f.getD 5 0))
  else none

/-- A login that names neither a phone nor a PC. -/
def EndsSession (f : List UInt8) : Prop :=
  frameCode f = 0x00 ∧ f.getD 4 0 ≠ clientTypePhone ∧ f.getD 4 0 ≠ clientTypePC

instance (f : List UInt8) : Decidable (EndsSession f) := inferInstanceAs (Decidable (_ ∧ _))

/-- The frames of a socket since its `AddClient`; `none` when it is not registered. -/
abbrev Session := Option (List (List UInt8))

def Session.after (t : Nat) (session : Session) : ClientEvent → Session
  | .addClient sock _ => if sock = t then some [] else session
  | .quitClient sock => if sock = t then none else session
  | .frame sock block len =>
      if sock = t then
        if EndsSession (block.toList.take len) then none
        else session.map fun frames => frames ++ [block.toList.take len]
      else session

def session (history : List ClientEvent) (t : Nat) : Session :=
  history.foldl (Session.after t) none

/-- The same for the entry of the table: `map::insert` does nothing where there is one. -/
def Session.kept (t : Nat) (session : Session) : ClientEvent → Session
  | .addClient sock _ => if sock = t then some (session.getD []) else session
  | e => session.after t e

@[simp] theorem Session.kept_quitClient (t : Nat) (session : Session) (sock : Nat) :
    session.kept t (.quitClient sock) = session.after t (.quitClient sock) := rfl

@[simp] theorem Session.kept_frame (t : Nat) (session : Session) (sock : Nat) (block : Block) (len : Nat) :
    session.kept t (.frame sock block len) = session.after t (.frame sock block len) := rfl

def entry (history : List ClientEvent) (t : Nat) : Session :=
  history.foldl (Session.kept t) none

/-- `AddClient` is called for sockets that are not registered. -/
def AddedOnce (history : List ClientEvent) : Prop :=
  ∀ before sock conn, before ++ [.addClient sock conn] <+: history → session before sock = none

/-- The type byte of the last login. -/
def lastType (frames : List (List UInt8)) : Option UInt8 := (frames.filterMap loginType).getLast?

/-- The camera id of the last login or reset, and 0 before any. -/
def lastCameraId (frames : List (List UInt8)) : Nat :=
  (frames.filterMap carriedCameraId).getLast?.getD 0

/-- The last login of `t` is that of a PC, with the camera id that `s` has. -/
def Watching (sessions : Nat → Session) (s t : Nat) : Prop :=
  t ≠ s ∧ ∃ phone pc, sessions s = some phone ∧ sessions t = some pc ∧
    lastType pc = some clientTypePC ∧ lastCameraId pc = lastCameraId phone

abbrev Watches (history : List ClientEvent) : Nat → Nat → Prop := Watching (session history)

/-! ## The code -/

namespace ClientEvent

def step (clients : ClientMap) : ClientEvent → ClientMap
  | .addClient sock conn => CRecvDataProc.addClient clients sock conn
  | .quitClient sock => CRecvDataProc.quitClient clients sock
  | .frame sock block len => (CRecvDataProc.commandProc clients sock block len).clients

/-- The block holds a frame of this length; a login has 8 bytes at least, a reset 7. -/
def Legal : ClientEvent → Prop
  | .frame _ block len =>
      let f := block.toList.take len
      WellFormed f ∧ f.length = len ∧ (frameCode f = 0x00 → 8 ≤ len) ∧ (frameCode f = 0x01 → 7 ≤ len)
  | _ => True

end ClientEvent

def clientsAfter (history : List ClientEvent) : ClientMap := history.foldl ClientEvent.step ∅

/-- The clients are those of the history, and a frame does what the history says. -/
structure Routed (history : List ClientEvent) (clients : ClientMap) : Prop where
  registered : ∀ t, t ∈ clients ↔ session history t ≠ none
  picture : ∀ s block len, (ClientEvent.frame s block len).Legal →
    frameCode (block.toList.take len) = 0x10 → s ∈ clients → ∀ t,
      (Watches history s t →
        (CRecvDataProc.commandProc clients s block len).calls.filter (·.sock = t) =
          [⟨t, block.toList.take len, len, true⟩]) ∧
      (¬Watches history s t →
        (CRecvDataProc.commandProc clients s block len).calls.filter (·.sock = t) = [])
  removed : ∀ s block len, (ClientEvent.frame s block len).Legal →
    EndsSession (block.toList.take len) →
      s ∉ (CRecvDataProc.commandProc clients s block len).clients
  others : ∀ s block len, (ClientEvent.frame s block len).Legal → ∀ t, t ≠ s →
    (CRecvDataProc.commandProc clients s block len).clients[t]? = clients[t]?

/-! ## The last of a session -/

theorem getLast?_filterMap_concat {α β : Type} (g : α → Option β) (l : List α) (a : α) :
    ((l ++ [a]).filterMap g).getLast? = (g a).or (l.filterMap g).getLast? := by
  rw [List.filterMap_append, List.getLast?_append]
  congr 1
  cases hg : g a with
  | none => rw [List.filterMap_cons_none hg]; rfl
  | some b => rw [List.filterMap_cons_some hg]; rfl

theorem lastType_concat (frames : List (List UInt8)) (f : List UInt8) :
    lastType (frames ++ [f]) = (loginType f).or (lastType frames) :=
  getLast?_filterMap_concat loginType frames f

theorem lastCameraId_concat (frames : List (List UInt8)) (f : List UInt8) :
    lastCameraId (frames ++ [f]) = (carriedCameraId f).getD (lastCameraId frames) := by
  rw [lastCameraId, getLast?_filterMap_concat, lastCameraId]
  cases carriedCameraId f <;> rfl

/-! ## The table and the sessions -/

/-- `ClientType` of a client with these frames. -/
def typeAfter (frames : List (List UInt8)) : Int := (lastType frames).elim (-1) fun type => type.toNat

/-- The client has the type and the camera id of its session. -/
def Tracks (session : Session) (client : Option ClientInfo) : Prop :=
  client.map (fun c => (c.clientType, c.cameraId)) =
    session.map fun frames => (typeAfter frames, lastCameraId frames)

theorem typeAfter_eq_one {frames : List (List UInt8)} :
    typeAfter frames = clientTypePC.toNat ↔ lastType frames = some clientTypePC := by
  unfold typeAfter
  cases lastType frames with
  | none => decide
  | some type =>
      rw [Option.elim_some, Int.natCast_inj, UInt8.toNat_inj, Option.some.injEq]

namespace Tracks

variable {session : Session} {clients : ClientMap} {client : Option ClientInfo} {t : Nat}

theorem none_iff (h : Tracks session client) : client = none ↔ session = none := by
  rw [← Option.map_eq_none_iff (f := fun c : ClientInfo => (c.clientType, c.cameraId)), h,
    Option.map_eq_none_iff]

theorem some_iff {c : ClientInfo} {frames : List (List UInt8)} :
    Tracks (some frames) (some c) ↔
      c.clientType = typeAfter frames ∧ c.cameraId = lastCameraId frames := by
  simp only [Tracks, Option.map_some, Option.some.injEq, Prod.mk.injEq]

theorem of_none (h : Tracks session none) : session = none := h.none_iff.mp rfl

theorem of_some {c : ClientInfo} (h : Tracks session (some c)) :
    ∃ frames, session = some frames ∧ c.clientType = typeAfter frames ∧
      c.cameraId = lastCameraId frames := by
  cases session with
  | none => cases h.none_iff.mpr rfl
  | some frames => exact ⟨frames, rfl, some_iff.mp h⟩

theorem addClient (h : Tracks session clients[t]?) (sock : Nat) (conn : Conn) :
    Tracks (session.kept t (.addClient sock conn))
      (ClientEvent.step clients (.addClient sock conn))[t]? := by
  have hget : (ClientEvent.step clients (.addClient sock conn))[t]? =
      if sock = t then some (clients[sock]?.getD ⟨sock, -1, 0, Parser.new, 0, true, conn⟩)
      else clients[t]? := get_insertIfNew _ _ _ _
  rw [hget, Session.kept]
  split
  · rename_i hsock
    subst hsock
    cases hclient : clients[sock]? with
    | none =>
        rw [hclient] at h
        rw [h.of_none]
        exact some_iff.mpr ⟨rfl, rfl⟩
    | some c =>
        rw [hclient] at h
        obtain ⟨frames, hframes, hfacts⟩ := h.of_some
        rw [hframes]
        exact some_iff.mpr hfacts
  · exact h

theorem quitClient (h : Tracks session clients[t]?) (sock : Nat) :
    Tracks (session.kept t (.quitClient sock)) (ClientEvent.step clients (.quitClient sock))[t]? := by
  have hget : (ClientEvent.step clients (.quitClient sock))[t]? =
      if sock = t then none else clients[t]? := get_erase _ _ _
  rw [hget, Session.kept_quitClient, Session.after]
  split
  · rfl
  · exact h

/-- A frame that carries no login and no camera id leaves a session as it is. -/
theorem concat (h : Tracks session client) {f : List UInt8} (htype : loginType f = none)
    (hcamera : carriedCameraId f = none) :
    Tracks (session.map fun frames => frames ++ [f]) client := by
  rw [Tracks, h, Option.map_map]
  congr 1
  funext frames
  simp only [Function.comp_apply, typeAfter, lastType_concat, lastCameraId_concat, htype, hcamera,
    Option.none_or, Option.getD_none]

end Tracks

/-! ## Frames -/

section Frames

variable {clients : ClientMap} {sock : Nat} {block : Block} {len : Nat}

/-- What the handlers read of a legal frame is the frame's own. -/
structure Reads (block : Block) (f : List UInt8) : Prop where
  code : byteAt block 3 = frameCode f
  type : byteAt block 4 = f.getD 4 0
  login : frameCode f = 0x00 → cameraIdAt block 5 = bigEndian (f.getD 5 0) (f.getD 6 0)
  reset : frameCode f = 0x01 → cameraIdAt block 4 = bigEndian (f.getD 4 0) (f.getD 5 0)

theorem reads_of_legal (h : (ClientEvent.frame sock block len).Legal) :
    Reads block (block.toList.take len) := by
  obtain ⟨hf, hlen, hlogin, hreset⟩ := h
  have hmin := hf.len_min
  simp only [frameLenMin] at hmin
  have hbegins : BeginsWith (block.toList.take len) block := by
    rw [BeginsWith, hlen]
  refine ⟨hbegins.byteAt_eq (by omega), hbegins.byteAt_eq (by omega), ?_, ?_⟩
  · intro hcode
    have h8 := hlogin hcode
    rw [cameraIdAt, hbegins.byteAt_eq (by omega), hbegins.byteAt_eq (by omega), bigEndian]
  · intro hcode
    have h7 := hreset hcode
    rw [cameraIdAt, hbegins.byteAt_eq (by omega), hbegins.byteAt_eq (by omega), bigEndian]

variable {f : List UInt8}

theorem Reads.endsSession (h : Reads block f) :
    EndsSession f ↔ byteAt block 3 = 0x00 ∧ BadType block := by
  rw [EndsSession, BadType, h.code, h.type, not_or]

/-- A frame that the handlers read as `f` does to its client what `f` does to the session. -/
theorem Tracks.handled {session : Session} (h : Tracks session clients[sock]?)
    (hreads : Reads block f) (frameLen : Int) :
    Tracks (if EndsSession f then none else session.map fun frames => frames ++ [f])
      (CRecvDataProc.commandProc clients sock block frameLen).clients[sock]? := by
  have hcode := hreads.code
  by_cases h0 : byteAt block 3 = 0x00
  · have h0' := hcode ▸ h0
    by_cases hrej : BadType block ∨ clients[sock]? = none
    · have hgone : (CRecvDataProc.commandProc clients sock block frameLen).clients[sock]? = none := by
        rw [CRecvDataProc.commandProc_rejected h0 hrej]
        exact (get_erase clients sock sock).trans (if_pos rfl)
      rw [hgone]
      split
      · rfl
      · rename_i hends
        have hnone := hrej.resolve_left fun hbad => hends (hreads.endsSession.mpr ⟨h0, hbad⟩)
        rw [h.none_iff.mp hnone]
        rfl
    · obtain ⟨hgood, hsome⟩ := not_or.mp hrej
      obtain ⟨c, hclient⟩ := Option.ne_none_iff_exists'.mp hsome
      rw [if_neg fun hends => hgood (hreads.endsSession.mp hends).2,
        CRecvDataProc.commandProc_login h0 hgood hclient, get_insert, if_pos rfl]
      rw [hclient] at h
      obtain ⟨frames, hframes, _⟩ := h.of_some
      rw [hframes, Option.map_some, Tracks.some_iff, typeAfter, lastType_concat,
        lastCameraId_concat, loginType, carriedCameraId, if_pos h0', if_pos h0']
      exact ⟨by rw [hreads.type]; rfl, hreads.login h0'⟩
  · have h0' : frameCode f ≠ 0x00 := hcode ▸ h0
    have htype : loginType f = none := if_neg h0'
    rw [if_neg fun hends => h0' hends.1]
    by_cases h1 : byteAt block 3 = 0x01
    · have h1' := hcode ▸ h1
      rw [CRecvDataProc.commandProc_reset h1, CRecvDataProc.resetCameraId]
      cases hclient : clients[sock]? with
      | none =>
          rw [hclient] at h
          rw [h.of_none]
          dsimp only
          rw [hclient]
          rfl
      | some c =>
          rw [hclient] at h
          obtain ⟨frames, hframes, hkept, _⟩ := h.of_some
          dsimp only
          rw [hframes, get_insert, if_pos rfl, Option.map_some, Tracks.some_iff, typeAfter,
            lastType_concat, lastCameraId_concat, htype, carriedCameraId, if_neg h0', if_pos h1']
          exact ⟨hkept, hreads.reset h1'⟩
    · have hcamera : carriedCameraId f = none := by
        rw [carriedCameraId, if_neg h0', if_neg (hcode ▸ h1)]
      by_cases h2 : byteAt block 3 = 0x10
      · rw [CRecvDataProc.commandProc_picture h2]
        exact h.concat htype hcamera
      · rw [CRecvDataProc.commandProc_unknown h0 h1 h2]
        exact h.concat htype hcamera

theorem Tracks.frame {session : Session} (h : Tracks session clients[sock]?)
    (hlegal : (ClientEvent.frame sock block len).Legal) :
    Tracks (session.kept sock (.frame sock block len))
      (CRecvDataProc.commandProc clients sock block len).clients[sock]? := by
  rw [Session.kept_frame, Session.after, if_pos rfl]
  exact h.handled (reads_of_legal hlegal) len

end Frames

/-! ## Histories -/

theorem session_concat (history : List ClientEvent) (e : ClientEvent) (t : Nat) :
    session (history ++ [e]) t = (session history t).after t e :=
  List.foldl_concat _ _ _ _

theorem entry_concat (history : List ClientEvent) (e : ClientEvent) (t : Nat) :
    entry (history ++ [e]) t = (entry history t).kept t e :=
  List.foldl_concat _ _ _ _

theorem addedOnce_concat {history : List ClientEvent} {e : ClientEvent} :
    AddedOnce (history ++ [e]) ↔
      AddedOnce history ∧ ∀ sock conn, e = .addClient sock conn → session history sock = none := by
  constructor
  · intro h
    refine ⟨fun before sock conn hstart => h before sock conn (hstart.trans (List.prefix_append _ _)), ?_⟩
    rintro sock conn rfl
    exact h history sock conn List.prefix_rfl
  · rintro ⟨h, hlast⟩ before sock conn hstart
    rcases List.prefix_concat_iff.mp hstart with heq | hstart
    · obtain ⟨rfl, hevent⟩ := List.append_inj' heq rfl
      exact hlast sock conn (List.singleton_inj.mp hevent).symm
    · exact h before sock conn hstart

/-- The entry of a socket is there as long as its session. -/
theorem entry_isSome (history : List ClientEvent) (t : Nat) :
    (entry history t).isSome = (session history t).isSome := by
  induction history using List.reverseRecOn with
  | nil => rfl
  | append_singleton history e ih =>
      rw [entry_concat, session_concat]
      cases e with
      | addClient sock conn =>
          simp only [Session.kept, Session.after]
          split
          · rfl
          · exact ih
      | quitClient sock =>
          simp only [Session.kept, Session.after]
          split
          · rfl
          · exact ih
      | frame sock block len =>
          simp only [Session.kept, Session.after]
          split
          · split
            · rfl
            · rw [Option.isSome_map, Option.isSome_map, ih]
          · exact ih

theorem entry_eq_session {history : List ClientEvent} (h : AddedOnce history) (t : Nat) :
    entry history t = session history t := by
  induction history using List.reverseRecOn with
  | nil => rfl
  | append_singleton history e ih =>
      obtain ⟨hbefore, hlast⟩ := addedOnce_concat.mp h
      rw [entry_concat, session_concat, ih hbefore]
      cases e with
      | addClient sock conn =>
          rw [Session.kept, Session.after]
          split
          · rename_i hsock
            rw [← hsock, hlast sock conn rfl, Option.getD_none]
          · rfl
      | quitClient sock => rfl
      | frame sock block len => rfl

/-- The table is that of the entries. -/
def Follows (history : List ClientEvent) (clients : ClientMap) : Prop :=
  ∀ t : Nat, Tracks (entry history t) clients[t]?

theorem Follows.step {history : List ClientEvent} {clients : ClientMap} (h : Follows history clients)
    {e : ClientEvent} (hlegal : e.Legal) : Follows (history ++ [e]) (e.step clients) := by
  intro t
  rw [entry_concat]
  cases e with
  | addClient sock conn => exact (h t).addClient sock conn
  | quitClient sock => exact (h t).quitClient sock
  | frame sock block len =>
      by_cases hsock : sock = t
      · subst hsock
        exact (h sock).frame hlegal
      · rw [Session.kept_frame, Session.after, if_neg hsock, ClientEvent.step,
          CRecvDataProc.commandProc_other clients block len (Ne.symm hsock)]
        exact h t

theorem follows_of_history (history : List ClientEvent) (hlegal : ∀ e ∈ history, e.Legal) :
    Follows history (clientsAfter history) := by
  induction history using List.reverseRecOn with
  | nil => exact fun t => rfl
  | append_singleton history e ih =>
      have hbefore := ih fun e' he' => hlegal e' (List.mem_append_left [e] he')
      rw [clientsAfter, List.foldl_concat]
      exact hbefore.step (hlegal e (List.mem_append_right history (List.mem_singleton_self e)))

/-! ## Pictures -/

/-- A table has one entry at most for a socket. -/
theorem filter_toList_eq (clients : ClientMap) (t : Nat) :
    clients.toList.filter (fun entry => entry.1 = t) =
      (clients[t]?.map fun client => (t, client)).toList := by
  have hkeys : (clients.toList.filter fun entry => entry.1 = t).Pairwise fun a b => a.1 ≠ b.1 := by
    apply List.Pairwise.filter
    exact clients.distinct_keys_toList.imp fun hne heq => hne (compare_eq_iff_eq.mpr heq)
  have hmem : ∀ entry, entry ∈ clients.toList.filter (fun entry => entry.1 = t) ↔
      entry.1 = t ∧ clients[t]? = some entry.2 := by
    rintro ⟨k, client⟩
    rw [List.mem_filter, Std.TreeMap.mem_toList_iff_getElem?_eq_some, decide_eq_true_eq, and_comm]
    exact and_congr_right fun (hk : k = t) => by rw [hk]
  cases hclient : clients[t]? with
  | none =>
      apply List.eq_nil_iff_forall_not_mem.mpr
      intro entry hentry
      have := ((hmem entry).mp hentry).2
      rw [hclient] at this
      cases this
  | some client =>
      have hin := (hmem (t, client)).mpr ⟨rfl, hclient⟩
      match hl : clients.toList.filter (fun entry => entry.1 = t) with
      | [] =>
          rw [hl] at hin
          cases hin
      | [entry] =>
          rw [hl, List.mem_singleton] at hin
          rw [hl, ← hin]
          rfl
      | a :: b :: rest =>
          rw [hl] at hkeys hmem
          have ha := ((hmem a).mp List.mem_cons_self).1
          have hb := ((hmem b).mp (List.mem_cons_of_mem a List.mem_cons_self)).1
          exact absurd (ha.trans hb.symm) (List.rel_of_pairwise_cons hkeys List.mem_cons_self)

/-- The calls that a picture leads to for one socket. -/
theorem filter_picDataRecv {clients : ClientMap} {s : Nat} {phone : ClientInfo}
    (hphone : clients[s]? = some phone) (block : Block) (len : Nat) (t : Nat) :
    (CRecvDataProc.picDataRecv clients s block len).filter (fun call => call.sock = t) =
      match clients[t]? with
      | some client =>
          if isViewer s phone.cameraId t client then [⟨t, block.toList.take len, len, true⟩] else []
      | none => [] := by
  have hcomm : ((clients.toList.filter fun entry => isViewer s phone.cameraId entry.1 entry.2).filter
      fun entry => entry.1 = t) =
        (clients[t]?.map fun client => (t, client)).toList.filter
          fun entry => isViewer s phone.cameraId entry.1 entry.2 := by
    rw [List.filter_comm, filter_toList_eq]
  rw [CRecvDataProc.picDataRecv, hphone]
  dsimp only
  rw [List.filter_map]
  simp only [Function.comp_def, SendDataCall.of, hcomm, Int.toNat_natCast]
  cases clients[t]? with
  | none => rfl
  | some client =>
      simp only [Option.map_some, Option.toList_some, List.filter_cons, List.filter_nil]
      split <;> rfl

/-- Who gets a picture, by the two sessions. -/
theorem Tracks.isViewer_iff {sending watching : Session} {s t : Nat} {phone client : ClientInfo}
    (hs : Tracks sending (some phone)) (ht : Tracks watching (some client)) :
    isViewer s phone.cameraId t client = true ↔ t ≠ s ∧ ∃ phone pc, sending = some phone ∧
      watching = some pc ∧ lastType pc = some clientTypePC ∧ lastCameraId pc = lastCameraId phone := by
  obtain ⟨sent, hsent, _, hcamera⟩ := hs.of_some
  obtain ⟨frames, hframes, htype, hid⟩ := ht.of_some
  rw [isViewer, decide_eq_true_eq, htype, hid, hcamera, typeAfter_eq_one]
  constructor
  · rintro ⟨hne, hpc, hsame⟩
    exact ⟨hne, sent, frames, hsent, hframes, hpc, hsame.symm⟩
  · rintro ⟨hne, sent', frames', hsent', hframes', hpc, hsame⟩
    cases hsent.symm.trans hsent'
    cases hframes.symm.trans hframes'
    exact ⟨hne, hpc, hsame.symm⟩

theorem Follows.isViewer_iff {history : List ClientEvent} {clients : ClientMap}
    (h : Follows history clients) {s t : Nat} {phone client : ClientInfo}
    (hphone : clients[s]? = some phone) (hclient : clients[t]? = some client) :
    isViewer s phone.cameraId t client = true ↔ Watching (entry history) s t :=
  Tracks.isViewer_iff (hphone ▸ h s) (hclient ▸ h t)

theorem Follows.picture {history : List ClientEvent} {clients : ClientMap}
    (h : Follows history clients) {s : Nat} {block : Block} (len : Nat)
    (hcode : byteAt block 3 = 0x10) (hs : s ∈ clients) (t : Nat) :
    (Watching (entry history) s t →
      (CRecvDataProc.commandProc clients s block len).calls.filter (·.sock = t) =
        [⟨t, block.toList.take len, len, true⟩]) ∧
    (¬Watching (entry history) s t →
      (CRecvDataProc.commandProc clients s block len).calls.filter (·.sock = t) = []) := by
  obtain ⟨phone, hphone⟩ := Option.isSome_iff_exists.mp (Std.TreeMap.mem_iff_isSome_getElem?.mp hs)
  rw [CRecvDataProc.commandProc_picture hcode, filter_picDataRecv hphone]
  cases hclient : clients[t]? with
  | none =>
      have ht := h t
      rw [hclient] at ht
      refine ⟨?_, fun _ => rfl⟩
      rintro ⟨_, _, frames, _, hframes, _⟩
      cases ht.of_none.symm.trans hframes
  | some client =>
      have hviewer := h.isViewer_iff hphone hclient
      exact ⟨fun hw => if_pos (hviewer.mpr hw), fun hw => if_neg fun hv => hw (hviewer.mp hv)⟩

/-! ## Every history -/

theorem Follows.registered {history : List ClientEvent} {clients : ClientMap}
    (h : Follows history clients) (t : Nat) : t ∈ clients ↔ session history t ≠ none := by
  rw [Std.TreeMap.mem_iff_isSome_getElem?, Option.isSome_iff_ne_none, ne_eq, ne_eq, (h t).none_iff,
    ← Option.not_isSome_iff_eq_none, ← Option.not_isSome_iff_eq_none, entry_isSome]

/-- Of the claims about a history, what its pictures do is the only one that a stale entry can break. -/
theorem Follows.routed {history : List ClientEvent} {clients : ClientMap} (h : Follows history clients)
    (hsame : ∀ s t, s ∈ clients → (Watching (entry history) s t ↔ Watches history s t)) :
    Routed history clients := by
  refine ⟨h.registered, ?_, ?_, ?_⟩
  · intro s block len hframe hcode hs t
    rw [← hsame s t hs]
    exact h.picture len ((reads_of_legal hframe).code.trans hcode) hs t
  · intro s block len hframe hends hs
    obtain ⟨hcode, hbad⟩ := (reads_of_legal hframe).endsSession.mp hends
    have hgone := get_erase clients s s
    rw [if_pos rfl] at hgone
    rw [CRecvDataProc.commandProc_rejected hcode (Or.inl hbad), Std.TreeMap.mem_iff_isSome_getElem?,
      CRecvDataProc.quitClient, hgone] at hs
    cases hs
  · intro s block len _ t ht
    exact CRecvDataProc.commandProc_other _ block len ht

theorem legal_blockOver {f : List UInt8} (hf : WellFormed f) (hlogin : frameCode f = 0x00 → 8 ≤ f.length)
    (hreset : frameCode f = 0x01 → 7 ≤ f.length) (sock : Nat) :
    (ClientEvent.frame sock (blockOver f 0) f.length).Legal := by
  have hbegins := beginsWith_blockOver hf 0
  rw [BeginsWith] at hbegins
  simp only [ClientEvent.Legal, hbegins]
  exact ⟨hf, trivial, hlogin, hreset⟩

def shortPicture : List UInt8 := [0x7E, 0x00, 0x05, 0x10, 0xA5]

theorem legal_shortPicture (sock : Nat) :
    (ClientEvent.frame sock (blockOver shortPicture 0) 5).Legal :=
  legal_blockOver (f := shortPicture) ⟨rfl, by decide, by decide, by decide, rfl⟩
    (fun h => absurd h (by decide)) (fun h => absurd h (by decide)) sock

/-- A picture with no payload shows who watches. -/
theorem Routed.watching_iff {history : List ClientEvent} {clients : ClientMap}
    (h : Routed history clients) (hfollows : Follows history clients) {s : Nat} (hs : s ∈ clients)
    (t : Nat) : Watching (entry history) s t ↔ Watches history s t := by
  have hbegins := beginsWith_blockOver (f := shortPicture) ⟨rfl, by decide, by decide, by decide, rfl⟩ 0
  have hcode : frameCode ((blockOver shortPicture 0).toList.take 5) = 0x10 := by
    rw [BeginsWith] at hbegins
    exact (congrArg frameCode hbegins).trans rfl
  have hlegal := legal_shortPicture s
  have hsaid := h.picture s _ 5 hlegal hcode hs t
  have hdone := hfollows.picture 5 ((reads_of_legal hlegal).code.trans hcode) hs t
  constructor
  · intro hentry
    by_contra hnot
    rw [hsaid.2 hnot] at hdone
    cases hdone.1 hentry
  · intro hsession
    by_contra hnot
    rw [hsaid.1 hsession] at hdone
    cases hdone.2 hnot

/-- As long as `AddClient` is called for sockets that are not registered, routing follows the history; and
in any history it does exactly if the entries tell the same of who watches whom as the sessions. -/
theorem routed_of_addedOnce (history : List ClientEvent) (hlegal : ∀ e ∈ history, e.Legal) :
    (AddedOnce history → Routed history (clientsAfter history)) ∧
      (Routed history (clientsAfter history) ↔ ∀ s t, session history s ≠ none →
        (Watching (entry history) s t ↔ Watches history s t)) := by
  have h := follows_of_history history hlegal
  constructor
  · intro honce
    apply h.routed
    intro s t _
    rw [Watches, funext (entry_eq_session honce)]
  · constructor
    · intro hrouted s t hs
      exact hrouted.watching_iff h ((h.registered s).mpr hs) t
    · intro hsame
      exact h.routed fun s t hs => hsame s t ((h.registered s).mp hs)

def phoneLogin : List UInt8 := [0x7E, 0x00, 0x08, 0x00, 0x00, 0x00, 0x07, 0xA5]

def pcLogin : List UInt8 := [0x7E, 0x00, 0x08, 0x00, 0x01, 0x00, 0x07, 0xA5]

/-- A PC that watches no camera yet. -/
def pcLoginZero : List UInt8 := [0x7E, 0x00, 0x08, 0x00, 0x01, 0x00, 0x00, 0xA5]

theorem legal_login {f : List UInt8} (hf : WellFormed f) (hcode : frameCode f = 0x00)
    (hlen : f.length = 8) (sock : Nat) : (ClientEvent.frame sock (blockOver f 0) 8).Legal := by
  have hlegal := legal_blockOver hf (fun _ => hlen.ge) (fun h => absurd (hcode.symm.trans h) (by decide))
    sock
  rwa [hlen] at hlegal

/-- A phone and a PC with the same camera; the PC quits and is added again. -/
theorem routed_of_addedOnce_pair :
    let history : List ClientEvent := [.addClient 5 0, .addClient 6 1,
      .frame 5 (blockOver phoneLogin 0) 8, .frame 6 (blockOver pcLogin 0) 8, .quitClient 6,
      .addClient 6 2]
    AddedOnce history ∧ Routed history (clientsAfter history) := by
  intro history
  have hlegal : ∀ e ∈ history, e.Legal := by
    intro e he
    simp only [history, List.mem_cons, List.not_mem_nil, or_false] at he
    rcases he with rfl | rfl | rfl | rfl | rfl | rfl
    · trivial
    · trivial
    · exact legal_login (f := phoneLogin) ⟨rfl, by decide, by decide, by decide, rfl⟩ rfl rfl 5
    · exact legal_login (f := pcLogin) ⟨rfl, by decide, by decide, by decide, rfl⟩ rfl rfl 6
    · trivial
    · trivial
  have honce : AddedOnce history := by
    have hnil : AddedOnce [] := fun before sock conn hstart =>
      absurd (List.prefix_nil.mp hstart) (List.append_ne_nil_of_right_ne_nil _ (List.cons_ne_nil _ _))
    have h5 : AddedOnce [.addClient 5 0] := addedOnce_concat.mpr ⟨hnil, fun _ _ _ => rfl⟩
    have h6 : AddedOnce [.addClient 5 0, .addClient 6 1] :=
      addedOnce_concat.mpr ⟨h5, by rintro _ _ ⟨⟩; rfl⟩
    have hphone := addedOnce_concat.mpr ⟨h6, fun sock conn h =>
      absurd h (by simp : ClientEvent.frame 5 (blockOver phoneLogin 0) 8 ≠ .addClient sock conn)⟩
    have hpc := addedOnce_concat.mpr ⟨hphone, fun sock conn h =>
      absurd h (by simp : ClientEvent.frame 6 (blockOver pcLogin 0) 8 ≠ .addClient sock conn)⟩
    have hquit := addedOnce_concat.mpr ⟨hpc, fun sock conn h =>
      absurd h (by simp : ClientEvent.quitClient 6 ≠ .addClient sock conn)⟩
    refine addedOnce_concat.mpr ⟨hquit, ?_⟩
    rintro _ _ ⟨⟩
    decide +kernel
  exact ⟨honce, (routed_of_addedOnce history hlegal).1 honce⟩

/-- The second connection on a socket has not logged in, and gets the picture that the first one would. -/
theorem not_routed_again :
    let history : List ClientEvent := [.addClient 5 0, .addClient 6 1,
      .frame 6 (blockOver pcLoginZero 0) 8, .addClient 6 2]
    (∀ e ∈ history, e.Legal) ∧ ¬Routed history (clientsAfter history) := by
  intro history
  have hlegal : ∀ e ∈ history, e.Legal := by
    intro e he
    simp only [history, List.mem_cons, List.not_mem_nil, or_false] at he
    rcases he with rfl | rfl | rfl | rfl
    · trivial
    · trivial
    · exact legal_login (f := pcLoginZero) ⟨rfl, by decide, by decide, by decide, rfl⟩ rfl rfl 6
    · trivial
  refine ⟨hlegal, fun hrouted => ?_⟩
  have hfollows := follows_of_history history hlegal
  have h5 : 5 ∈ clientsAfter history := (hfollows.registered 5).mpr (by decide +kernel)
  have hentry : Watching (entry history) 5 6 :=
    ⟨by decide, [], [(blockOver pcLoginZero 0).toList.take 8], by decide +kernel, by decide +kernel,
      by decide +kernel, by decide +kernel⟩
  obtain ⟨_, _, pc, _, hpc, hlogin, _⟩ := (hrouted.watching_iff hfollows h5 6).mp hentry
  have hsession : session history 6 = some [] := by decide +kernel
  cases hsession.symm.trans hpc
  cases hlogin

end CmdTran
