import CmdTran.Overlap.Basic
import CmdTran.Server.Lemmas.Quiet

/-!
# Registration under overlap

As long as the handlers keep to their turn, the open descriptors and the entries of both tables belong
to the connections whose handlers have got that far. A connection that is open and whose accept
handler is done has its own entries.
-/

namespace CmdTran

open Server

variable {ω : Type} {env : World ω}

/-! ## Places held by connections -/

/-- At each place `n`, `f n` is the connection with the descriptor `n` that has got as far as `P`. -/
def Holds (progress : Conn → Option Progress) (P : Progress → Prop) (f : Nat → Option Conn) : Prop :=
  ∀ n conn, f n = some conn ↔ ∃ p, progress conn = some p ∧ p.fd = n ∧ P p

section Holds

variable {progress : Conn → Option Progress} {P : Progress → Prop} {f f' : Nat → Option Conn}
  {conn : Conn} {p' : Progress}

theorem update_eq_some {c : Conn} {q : Progress} :
    Function.update progress conn (some p') c = some q ↔
      (c = conn ∧ q = p') ∨ (c ≠ conn ∧ progress c = some q) := by
  rw [Function.update_apply]
  constructor
  · intro h
    split at h
    · cases h
      exact Or.inl ⟨‹_›, rfl⟩
    · exact Or.inr ⟨‹_›, h⟩
  · rintro (⟨rfl, rfl⟩ | ⟨hne, h⟩)
    · rw [if_pos rfl]
    · rw [if_neg hne, h]

theorem Holds.same (h : Holds progress P f)
    (hP : ∀ n, (p'.fd = n ∧ P p') ↔ ∃ p, progress conn = some p ∧ p.fd = n ∧ P p)
    (hf : ∀ n, f' n = f n) : Holds (Function.update progress conn (some p')) P f' := by
  intro n c
  rw [hf, h]
  by_cases hc : c = conn
  · subst hc
    rw [← hP]
    constructor
    · exact fun hp => ⟨p', update_eq_some.mpr (Or.inl ⟨rfl, rfl⟩), hp⟩
    · rintro ⟨q, hq, hp⟩
      rcases update_eq_some.mp hq with ⟨_, rfl⟩ | ⟨hne, _⟩
      · exact hp
      · exact absurd rfl hne
  · constructor
    · rintro ⟨q, hq, hp⟩
      exact ⟨q, update_eq_some.mpr (Or.inr ⟨hc, hq⟩), hp⟩
    · rintro ⟨q, hq, hp⟩
      rcases update_eq_some.mp hq with ⟨heq, _⟩ | ⟨_, hq⟩
      · exact absurd heq hc
      · exact ⟨q, hq, hp⟩

theorem Holds.gain (h : Holds progress P f) (hold : ∀ p, progress conn = some p → p.fd = p'.fd)
    (hfree : f p'.fd = none) (hP : P p')
    (hf : ∀ n, f' n = if n = p'.fd then some conn else f n) :
    Holds (Function.update progress conn (some p')) P f' := by
  have hnobody {c : Conn} {q : Progress} (hq : progress c = some q) (hPq : P q) : q.fd ≠ p'.fd := by
    intro heq
    have := (h p'.fd c).mpr ⟨q, hq, heq, hPq⟩
    rw [hfree] at this
    cases this
  intro n c
  rw [hf]
  constructor
  · intro hn
    split at hn
    · cases hn
      exact ⟨p', update_eq_some.mpr (Or.inl ⟨rfl, rfl⟩), by rw [‹n = p'.fd›], hP⟩
    · obtain ⟨q, hq, hfd, hPq⟩ := (h n c).mp hn
      refine ⟨q, update_eq_some.mpr (Or.inr ⟨?_, hq⟩), hfd, hPq⟩
      rintro rfl
      exact hnobody hq hPq (hold q hq)
  · rintro ⟨q, hq, hfd, hPq⟩
    rcases update_eq_some.mp hq with ⟨rfl, rfl⟩ | ⟨_, hq⟩
    · rw [if_pos hfd.symm]
    · rw [if_neg (hfd ▸ hnobody hq hPq)]
      exact (h n c).mpr ⟨q, hq, hfd, hPq⟩

theorem Holds.lose (h : Holds progress P f) (hold : ∀ p, progress conn = some p → p.fd = p'.fd)
    (hown : f p'.fd = some conn) (hP : ¬P p')
    (hf : ∀ n, f' n = if n = p'.fd then none else f n) :
    Holds (Function.update progress conn (some p')) P f' := by
  have honly {c : Conn} {q : Progress} (hq : progress c = some q) (hPq : P q) (heq : q.fd = p'.fd) :
      c = conn := by
    have := (h p'.fd c).mpr ⟨q, hq, heq, hPq⟩
    rw [hown] at this
    exact (Option.some.inj this).symm
  intro n c
  rw [hf]
  constructor
  · intro hn
    split at hn
    · cases hn
    · rename_i hne
      obtain ⟨q, hq, hfd, hPq⟩ := (h n c).mp hn
      refine ⟨q, update_eq_some.mpr (Or.inr ⟨?_, hq⟩), hfd, hPq⟩
      rintro rfl
      exact hne (hfd.symm.trans (hold q hq))
  · rintro ⟨q, hq, hfd, hPq⟩
    rcases update_eq_some.mp hq with ⟨rfl, rfl⟩ | ⟨hc, hq⟩
    · exact absurd hPq hP
    · have hne : n ≠ p'.fd := fun heq => hc (honly hq hPq (hfd.trans heq))
      rw [if_neg hne]
      exact (h n c).mpr ⟨q, hq, hfd, hPq⟩

theorem Holds.moved {p : Progress} (h : Holds progress P f) (hp : progress conn = some p)
    (hfd : p'.fd = p.fd) (hP : P p' ↔ P p) (hf : ∀ n, f' n = f n) :
    Holds (Function.update progress conn (some p')) P f' := by
  apply h.same _ hf
  intro n
  rw [hfd, hP]
  constructor
  · exact fun hn => ⟨p, hp, hn⟩
  · rintro ⟨q, hq, hn⟩
    cases hp.symm.trans hq
    exact hn

end Holds

/-! ## The invariant -/

namespace Overlap

def socketOwner (s : Server ω) (n : Nat) : Option Conn :=
  (s.socketInfo[n]?).map SocketInformation.conn

end Overlap

namespace Progress

def IsOpen (p : Progress) : Prop := p.close = .open

def HasSocket (p : Progress) : Prop :=
  (p.accept = .inserted ∨ p.accept = .done) ∧ p.close ≠ .removed

def HasClient (p : Progress) : Prop := p.accept = .done ∧ (p.close = .open ∨ p.close = .closed)

def IsClosing (p : Progress) : Prop := p.close = .closed ∨ p.close = .quit

/-- A connection is polled before its stream ends, and registered before it quits. -/
structure Ordered (p : Progress) : Prop where
  early : p.accept = .accepted → p.close = .open
  late : p.close = .quit ∨ p.close = .removed → p.accept = .done

end Progress

structure Registered (s : Overlap ω) : Prop where
  fresh : ∀ conn p, s.progress conn = some p → conn < s.server.kernel.accepted
  fds : Holds s.progress Progress.IsOpen s.server.kernel.fds
  sockets : Holds s.progress Progress.HasSocket (Overlap.socketOwner s.server)
  clients : Holds s.progress Progress.HasClient s.server.owner
  order : ∀ conn p, s.progress conn = some p → p.Ordered
  alone : ∀ conn p other q, s.progress conn = some p → s.progress other = some q → other ≠ conn →
    q.fd = p.fd → p.HasSocket → p.IsOpen → ¬q.IsClosing

theorem registered_start (w : ω) : Registered (Overlap.start w) := by
  refine ⟨?_, ?_, ?_, ?_, ?_, ?_⟩
  · rintro conn p h
    cases h
  · intro n conn
    simp [Overlap.start, Server.start, Kernel.start]
  · intro n conn
    simp [Overlap.start, Server.start, Overlap.socketOwner]
  · intro n conn
    simp [Overlap.start, Server.start, owner]
  · rintro conn p h
    cases h
  · rintro conn p other q h
    cases h

/-! ## One step -/

theorem Overlap.move_eq_some {s s' : Overlap ω} {conn : Conn} {ready : Progress → Bool}
    {next : Progress → Server ω × Progress} (h : s.move conn ready next = some s') :
    ∃ p, s.progress conn = some p ∧ ready p = true ∧
      s' = ⟨(next p).1, Function.update s.progress conn (some (next p).2)⟩ := by
  obtain ⟨p, hp, h⟩ := Option.bind_eq_some_iff.mp h
  split at h
  · cases h
    exact ⟨p, hp, ‹_›, rfl⟩
  · cases h

theorem Registered.fresh_move {s : Overlap ω} (h : Registered s) {conn : Conn} {p p' : Progress}
    (hp : s.progress conn = some p) {accepted : Nat} (hle : s.server.kernel.accepted ≤ accepted) :
    ∀ c q, Function.update s.progress conn (some p') c = some q → c < accepted := by
  intro c q hq
  rcases update_eq_some.mp hq with ⟨rfl, _⟩ | ⟨_, hq⟩
  · exact Nat.lt_of_lt_of_le (h.fresh _ p hp) hle
  · exact Nat.lt_of_lt_of_le (h.fresh c q hq) hle

theorem Registered.order_move {s : Overlap ω} (h : Registered s) {conn : Conn} {p' : Progress}
    (hp' : p'.Ordered) :
    ∀ c q, Function.update s.progress conn (some p') c = some q → q.Ordered := by
  intro c q hq
  rcases update_eq_some.mp hq with ⟨_, rfl⟩ | ⟨_, hq⟩
  · exact hp'
  · exact h.order c q hq

theorem Registered.open_unique {s : Overlap ω} (h : Registered s) {c d : Conn} {p q : Progress}
    (hp : s.progress c = some p) (hq : s.progress d = some q) (hfd : q.fd = p.fd)
    (hpo : p.IsOpen) (hqo : q.IsOpen) : d = c := by
  have hc := (h.fds p.fd c).mpr ⟨p, hp, rfl, hpo⟩
  have hd := (h.fds p.fd d).mpr ⟨q, hq, hfd, hqo⟩
  exact Option.some.inj (hd.symm.trans hc)

theorem Registered.alone_move {s : Overlap ω} (h : Registered s) {conn : Conn} {p p' : Progress}
    (hp : s.progress conn = some p) (hfd : p'.fd = p.fd)
    (hinsert : p'.HasSocket → p'.IsOpen → ∀ other q, s.progress other = some q → other ≠ conn →
      q.fd = p.fd → ¬q.IsClosing)
    (hclose : p'.IsClosing → p.IsClosing ∨ p.IsOpen) :
    ∀ c r other q, Function.update s.progress conn (some p') c = some r →
      Function.update s.progress conn (some p') other = some q → other ≠ c → q.fd = r.fd →
      r.HasSocket → r.IsOpen → ¬q.IsClosing := by
  intro c r other q hr hq hne hqr hsock hopen
  rcases update_eq_some.mp hr with ⟨rfl, rfl⟩ | ⟨_, hr'⟩
  · rcases update_eq_some.mp hq with ⟨rfl, _⟩ | ⟨_, hq'⟩
    · exact absurd rfl hne
    · exact hinsert hsock hopen other q hq' hne (hqr.trans hfd)
  · rcases update_eq_some.mp hq with ⟨rfl, rfl⟩ | ⟨_, hq'⟩
    · intro hclosing
      have hpr : p.fd = r.fd := hfd.symm.trans hqr
      rcases hclose hclosing with hwas | hwas
      · exact h.alone c r other p hr' hp hne hpr hsock hopen hwas
      · exact hne (h.open_unique hr' hp hpr hopen hwas)
    · exact h.alone c r other q hr' hq' hne hqr hsock hopen

theorem Registered.accept {s : Overlap ω} (h : Registered s) {fd : Nat}
    (hfree : s.server.kernel.fds fd = none) :
    Registered ⟨{ s.server with kernel := s.server.kernel.accept fd },
      Function.update s.progress s.server.kernel.accepted (some ⟨fd, .accepted, .open⟩)⟩ := by
  have hnew (p : Progress) : s.progress s.server.kernel.accepted ≠ some p := fun hp =>
    Nat.lt_irrefl _ (h.fresh _ p hp)
  have habsent (P : Progress → Prop) (hP : ¬P ⟨fd, .accepted, .open⟩) (n : Nat) :
      (fd = n ∧ P ⟨fd, .accepted, .open⟩) ↔
        ∃ p, s.progress s.server.kernel.accepted = some p ∧ p.fd = n ∧ P p := by
    constructor
    · exact fun hn => absurd hn.2 hP
    · rintro ⟨p, hp, _⟩
      exact absurd hp (hnew p)
  refine ⟨?_, ?_, ?_, ?_, ?_, ?_⟩
  · intro c q hq
    rcases update_eq_some.mp hq with ⟨rfl, _⟩ | ⟨_, hq⟩
    · exact Nat.lt_succ_self _
    · exact Nat.lt_succ_of_lt (h.fresh c q hq)
  · apply h.fds.gain
    · exact fun p hp => absurd hp (hnew p)
    · exact hfree
    · exact rfl
    · exact fun n => Kernel.fds_accept _ _ _
  · refine h.sockets.same (habsent _ ?_) fun _ => rfl
    rintro ⟨hstage, _⟩
    cases hstage with
    | inl hstage => cases hstage
    | inr hstage => cases hstage
  · refine h.clients.same (habsent _ ?_) fun _ => rfl
    rintro ⟨hstage, _⟩
    cases hstage
  · apply h.order_move
    refine ⟨fun _ => rfl, ?_⟩
    rintro (hstage | hstage)
    · cases hstage
    · cases hstage
  · intro c r other q hr hq hne hqr hsock hopen hclosing
    rcases update_eq_some.mp hr with ⟨_, rfl⟩ | ⟨_, hr⟩
    · rcases hsock.1 with hstage | hstage
      · cases hstage
      · cases hstage
    · rcases update_eq_some.mp hq with ⟨_, rfl⟩ | ⟨_, hq⟩
      · rcases hclosing with hstage | hstage
        · cases hstage
        · cases hstage
      · exact h.alone c r other q hr hq hne hqr hsock hopen hclosing

theorem Registered.polled {s : Overlap ω} (h : Registered s) {conn : Conn} {p : Progress}
    (hp : s.progress conn = some p) (hstage : p.accept = .accepted) :
    Registered ⟨s.server, Function.update s.progress conn (some { p with accept := .polled })⟩ := by
  have hnot : ¬p.HasSocket := by
    rintro ⟨hs | hs, _⟩
    · rw [hstage] at hs
      cases hs
    · rw [hstage] at hs
      cases hs
  have hnot' : ¬Progress.HasSocket { p with accept := .polled } := by
    rintro ⟨hs | hs, _⟩
    · cases hs
    · cases hs
  refine ⟨h.fresh_move hp (Nat.le_refl _), ?_, ?_, ?_, ?_, ?_⟩
  · exact h.fds.moved hp rfl Iff.rfl fun _ => rfl
  · exact h.sockets.moved hp rfl (iff_of_false hnot' hnot) fun _ => rfl
  · refine h.clients.moved hp rfl ?_ fun _ => rfl
    constructor
    · rintro ⟨hs, _⟩
      cases hs
    · rintro ⟨hs, _⟩
      rw [hstage] at hs
      cases hs
  · apply h.order_move
    refine ⟨nofun, fun hclose => ?_⟩
    have hdone := (h.order conn p hp).late hclose
    rw [hstage] at hdone
    cases hdone
  · exact h.alone_move hp rfl (fun hs => absurd hs hnot') fun hc => Or.inl hc

theorem Registered.refused {s : Overlap ω} (h : Registered s) {conn : Conn} {p : Progress}
    (hp : s.progress conn = some p) (hstage : p.accept = .accepted) (hopen : p.IsOpen) :
    Registered ⟨s.server.close p.fd,
      Function.update s.progress conn (some ⟨p.fd, .done, .removed⟩)⟩ := by
  have hnot : ¬p.HasSocket := by
    rintro ⟨hs | hs, _⟩
    · rw [hstage] at hs
      cases hs
    · rw [hstage] at hs
      cases hs
  have hnot' : ¬Progress.HasSocket ⟨p.fd, .done, .removed⟩ := fun hs => hs.2 rfl
  refine ⟨h.fresh_move hp (Nat.le_refl _), ?_, ?_, ?_, ?_, ?_⟩
  · refine h.fds.lose ?_ ((h.fds _ _).mpr ⟨p, hp, rfl, hopen⟩) ?_ fun n => Kernel.fds_close _ _ _
    · intro q hq
      cases hp.symm.trans hq
      rfl
    · intro hno
      cases hno
  · exact h.sockets.moved hp rfl (iff_of_false hnot' hnot) fun _ => rfl
  · refine h.clients.moved hp rfl ?_ fun _ => rfl
    constructor
    · rintro ⟨_, hs | hs⟩
      · cases hs
      · cases hs
    · rintro ⟨hs, _⟩
      rw [hstage] at hs
      cases hs
  · exact h.order_move ⟨nofun, fun _ => rfl⟩
  · refine h.alone_move hp rfl (fun hs => absurd hs hnot') fun hc => ?_
    rcases hc with hc | hc
    · cases hc
    · cases hc

theorem Registered.socket_free {s : Overlap ω} (h : Registered s) {conn : Conn} {p : Progress}
    (hp : s.progress conn = some p) (hstage : p.accept = .polled)
    (hturn : s.InTurn (.insertSocket conn)) : Overlap.socketOwner s.server p.fd = none := by
  cases howner : Overlap.socketOwner s.server p.fd with
  | none => rfl
  | some other =>
      obtain ⟨q, hq, hfd, hsock⟩ := (h.sockets p.fd other).mp howner
      have hne : other ≠ conn := by
        rintro rfl
        cases hp.symm.trans hq
        rcases hsock.1 with hs | hs
        · rw [hstage] at hs
          cases hs
        · rw [hstage] at hs
          cases hs
      obtain ⟨hclosed, hquit⟩ := hturn p other q hp hq hne hfd
      -- the other one is open, so this one is not, and an open socket is alone
      have hopen : q.IsOpen := by
        cases hc : q.close with
        | «open» => exact hc
        | closed => exact absurd hc hclosed
        | quit => exact absurd hc hquit
        | removed => exact absurd hc hsock.2
      have hclosing : ¬p.IsClosing :=
        h.alone other q conn p hq hp (Ne.symm hne) hfd.symm hsock hopen
      cases hc : p.close with
      | «open» => exact absurd (h.open_unique hq hp hfd.symm hopen hc) (Ne.symm hne)
      | closed => exact absurd (Or.inl hc) hclosing
      | quit => exact absurd (Or.inr hc) hclosing
      | removed =>
          have hdone := (h.order conn p hp).late (Or.inr hc)
          rw [hstage] at hdone
          cases hdone

theorem Registered.insertSocket {s : Overlap ω} (h : Registered s) {conn : Conn} {p : Progress}
    (hp : s.progress conn = some p) (hstage : p.accept = .polled)
    (hturn : s.InTurn (.insertSocket conn)) :
    Registered ⟨s.server.insertSocket p.fd conn,
      Function.update s.progress conn (some { p with accept := .inserted })⟩ := by
  have hfree := h.socket_free hp hstage hturn
  have hnone : s.server.socketInfo[p.fd]? = none := Option.map_eq_none_iff.mp hfree
  have hremoved : p.close ≠ .removed := by
    intro hc
    have hdone := (h.order conn p hp).late (Or.inr hc)
    rw [hstage] at hdone
    cases hdone
  refine ⟨h.fresh_move hp (Nat.le_refl _), ?_, ?_, ?_, ?_, ?_⟩
  · exact h.fds.moved hp rfl Iff.rfl fun _ => rfl
  · apply h.sockets.gain
    · intro q hq
      cases hp.symm.trans hq
      rfl
    · exact hfree
    · exact ⟨Or.inl rfl, hremoved⟩
    · intro n
      unfold Overlap.socketOwner
      rw [get_insertSocket, hnone]
      by_cases hn : n = p.fd
      · rw [if_pos hn, if_pos hn.symm]
        rfl
      · rw [if_neg hn, if_neg (Ne.symm hn)]
  · refine h.clients.moved hp rfl ?_ fun _ => rfl
    constructor
    · rintro ⟨hs, _⟩
      cases hs
    · rintro ⟨hs, _⟩
      rw [hstage] at hs
      cases hs
  · apply h.order_move
    refine ⟨nofun, fun hclose => ?_⟩
    have hdone := (h.order conn p hp).late hclose
    rw [hstage] at hdone
    cases hdone
  · refine h.alone_move hp rfl (fun _ _ other q hq hne hfd hclosing => ?_) fun hc => Or.inl hc
    obtain ⟨hclosed, hquit⟩ := hturn p other q hp hq hne hfd
    rcases hclosing with hc | hc
    · exact hclosed hc
    · exact hquit hc

theorem Registered.client_free {s : Overlap ω} (h : Registered s) {conn : Conn} {p : Progress}
    (hp : s.progress conn = some p) (hstage : p.accept = .inserted)
    (hturn : s.InTurn (.addClient conn)) : s.server.owner p.fd = none := by
  cases howner : s.server.owner p.fd with
  | none => rfl
  | some other =>
      obtain ⟨q, hq, hfd, hdone, hcase⟩ := (h.clients p.fd other).mp howner
      have hne : other ≠ conn := by
        rintro rfl
        cases hp.symm.trans hq
        rw [hstage] at hdone
        cases hdone
      have hclosed := hturn p other q hp hq hne hfd
      have hopen : q.IsOpen := hcase.resolve_right hclosed
      have hsock : q.HasSocket := by
        refine ⟨Or.inr hdone, ?_⟩
        rw [hopen]
        decide
      -- both have a socket at the same place
      have hown := (h.sockets p.fd other).mpr ⟨q, hq, hfd, hsock⟩
      have hremoved : p.close ≠ .removed := by
        intro hc
        have := (h.order conn p hp).late (Or.inr hc)
        rw [hstage] at this
        cases this
      have hown' := (h.sockets p.fd conn).mpr ⟨p, hp, rfl, Or.inl hstage, hremoved⟩
      exact absurd (Option.some.inj (hown.symm.trans hown')) hne

theorem Registered.addClient {s : Overlap ω} (h : Registered s) {conn : Conn} {p : Progress}
    (hp : s.progress conn = some p) (hstage : p.accept = .inserted)
    (hturn : s.InTurn (.addClient conn)) :
    Registered ⟨s.server.addClient p.fd conn,
      Function.update s.progress conn (some { p with accept := .done })⟩ := by
  have hfree := h.client_free hp hstage hturn
  have hnone : s.server.clientMap[p.fd]? = none := Option.map_eq_none_iff.mp hfree
  have hearly : p.close = .open ∨ p.close = .closed := by
    have hno (hc : p.close = .quit ∨ p.close = .removed) : False := by
      have hdone := (h.order conn p hp).late hc
      rw [hstage] at hdone
      cases hdone
    cases hc : p.close with
    | «open» => exact Or.inl rfl
    | closed => exact Or.inr rfl
    | quit => exact (hno (Or.inl hc)).elim
    | removed => exact (hno (Or.inr hc)).elim
  have hremoved : p.close ≠ .removed := by
    rcases hearly with hc | hc
    · rw [hc]
      decide
    · rw [hc]
      decide
  have hsock : p.HasSocket := ⟨Or.inl hstage, hremoved⟩
  refine ⟨h.fresh_move hp (Nat.le_refl _), ?_, ?_, ?_, ?_, ?_⟩
  · exact h.fds.moved hp rfl Iff.rfl fun _ => rfl
  · exact h.sockets.moved hp rfl (iff_of_true ⟨Or.inr rfl, hremoved⟩ hsock) fun _ => rfl
  · apply h.clients.gain
    · intro q hq
      cases hp.symm.trans hq
      rfl
    · exact hfree
    · exact ⟨rfl, hearly⟩
    · intro n
      unfold owner
      rw [get_addClient, hnone]
      by_cases hn : n = p.fd
      · rw [if_pos hn, if_pos hn.symm]
        rfl
      · rw [if_neg hn, if_neg (Ne.symm hn)]
  · exact h.order_move ⟨nofun, fun _ => rfl⟩
  · refine h.alone_move hp rfl (fun _ hopen other q hq hne hfd => ?_) fun hc => Or.inl hc
    exact h.alone conn p other q hp hq hne hfd hsock hopen

theorem Registered.close {s : Overlap ω} (h : Registered s) {conn : Conn} {p : Progress}
    (hp : s.progress conn = some p) (hstage : p.accept ≠ .accepted) (hopen : p.IsOpen) :
    Registered ⟨s.server.close p.fd,
      Function.update s.progress conn (some { p with close := .closed })⟩ := by
  have hremoved : p.close ≠ .removed := by
    rw [hopen]
    decide
  refine ⟨h.fresh_move hp (Nat.le_refl _), ?_, ?_, ?_, ?_, ?_⟩
  · refine h.fds.lose ?_ ((h.fds _ _).mpr ⟨p, hp, rfl, hopen⟩) ?_ fun n => Kernel.fds_close _ _ _
    · intro q hq
      cases hp.symm.trans hq
      rfl
    · intro hno
      cases hno
  · refine h.sockets.moved hp rfl ?_ fun _ => rfl
    constructor
    · exact fun hs => ⟨hs.1, hremoved⟩
    · exact fun hs => ⟨hs.1, fun hc => by cases hc⟩
  · refine h.clients.moved hp rfl ?_ fun _ => rfl
    constructor
    · exact fun hs => ⟨hs.1, Or.inl hopen⟩
    · exact fun hs => ⟨hs.1, Or.inr rfl⟩
  · apply h.order_move
    refine ⟨fun hs => absurd hs hstage, ?_⟩
    rintro (hc | hc)
    · cases hc
    · cases hc
  · refine h.alone_move hp rfl (fun _ ho => ?_) fun _ => Or.inr hopen
    cases ho

theorem Registered.quitClient {s : Overlap ω} (h : Registered s) {conn : Conn} {p : Progress}
    (hp : s.progress conn = some p) (hclosed : p.close = .closed) (hdone : p.accept = .done) :
    Registered ⟨s.server.quitClient p.fd,
      Function.update s.progress conn (some { p with close := .quit })⟩ := by
  refine ⟨h.fresh_move hp (Nat.le_refl _), ?_, ?_, ?_, ?_, ?_⟩
  · refine h.fds.moved hp rfl ?_ fun _ => rfl
    apply iff_of_false
    · intro ho
      cases ho
    · intro ho
      cases hclosed.symm.trans ho
  · refine h.sockets.moved hp rfl ?_ fun _ => rfl
    apply iff_of_true
    · exact ⟨Or.inr hdone, fun hc => by cases hc⟩
    · exact ⟨Or.inr hdone, fun hc => by cases hclosed.symm.trans hc⟩
  · refine h.clients.lose ?_ ((h.clients _ _).mpr ⟨p, hp, rfl, hdone, Or.inr hclosed⟩) ?_
      (owner_quitClient _ _)
    · intro q hq
      cases hp.symm.trans hq
      rfl
    · rintro ⟨_, hc | hc⟩
      · cases hc
      · cases hc
  · exact h.order_move ⟨fun hs => AcceptStage.noConfusion (hdone.symm.trans hs), fun _ => hdone⟩
  · refine h.alone_move hp rfl (fun _ ho => ?_) fun _ => Or.inl (Or.inl hclosed)
    cases ho

theorem Registered.removeSocket {s : Overlap ω} (h : Registered s) {conn : Conn} {p : Progress}
    (hp : s.progress conn = some p) (hquit : p.close = .quit) :
    Registered ⟨s.server.removeSocket env p.fd,
      Function.update s.progress conn (some { p with close := .removed })⟩ := by
  have hdone : p.accept = .done := (h.order conn p hp).late (Or.inl hquit)
  have hsock : p.HasSocket := ⟨Or.inr hdone, fun hc => by cases hquit.symm.trans hc⟩
  refine ⟨?_, ?_, ?_, ?_, ?_, ?_⟩
  · apply h.fresh_move hp
    rw [removeSocket_kernel]
  · refine h.fds.moved hp rfl ?_ ?_
    · apply iff_of_false
      · intro ho
        cases ho
      · intro ho
        cases hquit.symm.trans ho
    · intro n
      rw [removeSocket_kernel]
  · refine h.sockets.lose ?_ ((h.sockets _ _).mpr ⟨p, hp, rfl, hsock⟩) (fun hs => hs.2 rfl) ?_
    · intro q hq
      cases hp.symm.trans hq
      rfl
    · intro n
      unfold Overlap.socketOwner
      rw [get_removeSocket]
      by_cases hn : n = p.fd
      · rw [if_pos hn, if_pos hn.symm]
        rfl
      · rw [if_neg hn, if_neg (Ne.symm hn)]
  · refine h.clients.moved hp rfl ?_ ?_
    · apply iff_of_false
      · rintro ⟨_, hc | hc⟩
        · cases hc
        · cases hc
      · rintro ⟨_, hc | hc⟩
        · cases hquit.symm.trans hc
        · cases hquit.symm.trans hc
    · intro n
      unfold owner
      rw [removeSocket_clientMap]
  · exact h.order_move ⟨fun hs => AcceptStage.noConfusion (hdone.symm.trans hs), fun _ => hdone⟩
  · refine h.alone_move hp rfl (fun _ ho => ?_) fun hc => ?_
    · cases ho
    · rcases hc with hc | hc
      · cases hc
      · cases hc

theorem registered_step {s s' : Overlap ω} {a : OverlapStep} (h : Registered s)
    (hturn : s.InTurn a) (hstep : s.step env a = some s') : Registered s' := by
  cases a with
  | accept fd =>
      simp only [Overlap.step] at hstep
      split at hstep
      · cases hstep
        exact h.accept ‹_›
      · cases hstep
  | epollAdd conn added =>
      obtain ⟨p, hp, hready, rfl⟩ := Overlap.move_eq_some hstep
      have hstage := of_decide_eq_true hready
      cases added with
      | true => exact h.polled hp hstage
      | false => exact h.refused hp hstage ((h.order conn p hp).early hstage)
  | insertSocket conn =>
      obtain ⟨p, hp, hready, rfl⟩ := Overlap.move_eq_some hstep
      exact h.insertSocket hp (of_decide_eq_true hready) hturn
  | addClient conn =>
      obtain ⟨p, hp, hready, rfl⟩ := Overlap.move_eq_some hstep
      exact h.addClient hp (of_decide_eq_true hready) hturn
  | close conn =>
      obtain ⟨p, hp, hready, rfl⟩ := Overlap.move_eq_some hstep
      obtain ⟨hstage, hopen⟩ := of_decide_eq_true hready
      exact h.close hp hstage hopen
  | quitClient conn =>
      obtain ⟨p, hp, hready, rfl⟩ := Overlap.move_eq_some hstep
      exact h.quitClient hp (of_decide_eq_true hready) (hturn p hp)
  | removeSocket conn =>
      obtain ⟨p, hp, hready, rfl⟩ := Overlap.move_eq_some hstep
      exact h.removeSocket hp (of_decide_eq_true hready)

theorem Registered.ownEntries {s : Overlap ω} (h : Registered s) (hidle : s.Idle) :
    s.OwnEntries := by
  intro fd conn hfd
  obtain ⟨p, hp, hpfd, hopen⟩ := (h.fds fd conn).mp hfd
  obtain ⟨hdone, _⟩ := hidle conn p hp
  have hopen : p.close = .open := hopen
  constructor
  · have hsock : Overlap.socketOwner s.server fd = some conn := by
      apply (h.sockets fd conn).mpr
      exact ⟨p, hp, hpfd, Or.inr hdone, by rw [hopen]; decide⟩
    exact Option.map_eq_some_iff.mp hsock
  · have hclient : s.server.owner fd = some conn := by
      apply (h.clients fd conn).mpr
      exact ⟨p, hp, hpfd, hdone, Or.inl hopen⟩
    exact Option.map_eq_some_iff.mp hclient

/-! ## Runs -/

theorem registered_of_meets (env : World ω) (w : ω) {as : List OverlapStep} {s : Overlap ω}
    (hmeets : (overlaps env w).Meets Overlap.InTurn (Overlap.start w) as)
    (hrun : (overlaps env w).run (Overlap.start w) as = some s) : Registered s :=
  StepSystem.Meets.invariant (overlaps env w)
    (fun _ _ _ h hturn hstep => registered_step h hturn hstep) hmeets (registered_start w) hrun

/-- In every run whose handlers keep to their turn, whenever no handler is in progress, each open
connection has its own entry in both tables. -/
theorem ownEntries_of_inTurn (env : World ω) (w : ω) {as : List OverlapStep} {s : Overlap ω}
    (hmeets : (overlaps env w).Meets Overlap.InTurn (Overlap.start w) as)
    (hrun : (overlaps env w).run (Overlap.start w) as = some s) (hidle : s.Idle) :
    s.OwnEntries :=
  (registered_of_meets env w hmeets hrun).ownEntries hidle

def acceptSteps (fd : Nat) (conn : Conn) : List OverlapStep :=
  [.accept fd, .epollAdd conn true, .insertSocket conn, .addClient conn]

theorem within_update {S : Conn → Prop} {progress : Conn → Option Progress} {conn : Conn}
    {p' : Progress} (h : ∀ other q, progress other = some q → S other) (hconn : S conn)
    (other : Conn) (q : Progress)
    (hq : Function.update progress conn (some p') other = some q) : S other := by
  rcases update_eq_some.mp hq with ⟨heq, _⟩ | ⟨_, hq⟩
  · rw [heq]
    exact hconn
  · exact h other q hq

/-- An accept handler keeps to its turn when the handlers of all the other connections are at their end. -/
theorem meets_acceptSteps {s : Overlap ω} {fd : Nat} (hfree : s.server.kernel.fds fd = none)
    (hothers : ∀ other q, s.progress other = some q → q.close = .removed) (w : ω) :
    (overlaps env w).Meets Overlap.InTurn s (acceptSteps fd s.server.kernel.accepted) := by
  let conn := s.server.kernel.accepted
  have hkept {progress : Conn → Option Progress} {p' : Progress}
      (h : ∀ other q, progress other = some q → other ≠ conn → q.close = .removed) (other : Conn)
      (q : Progress) (hq : Function.update progress conn (some p') other = some q)
      (hne : other ≠ conn) : q.close = .removed := by
    rcases update_eq_some.mp hq with ⟨heq, _⟩ | ⟨_, hq⟩
    · exact absurd heq hne
    · exact h other q hq hne
  have hturn {q : Progress} (h : q.close = .removed) : q.close ≠ .closed ∧ q.close ≠ .quit := by
    rw [h]
    exact ⟨nofun, nofun⟩
  refine ⟨trivial, fun s₁ h₁ => ⟨trivial, fun s₂ h₂ => ⟨?_, fun s₃ h₃ => ⟨?_, fun _ _ => trivial⟩⟩⟩⟩
  all_goals
    simp only [overlaps, Overlap.step, if_pos hfree] at h₁
    cases h₁
    obtain ⟨p₁, _, _, rfl⟩ := Overlap.move_eq_some h₂
  · intro p other q _ hq hne _
    exact hturn (hkept (hkept fun other q hq _ => hothers other q hq) other q hq hne)
  · obtain ⟨p₂, _, _, rfl⟩ := Overlap.move_eq_some h₃
    intro p other q _ hq hne _
    exact (hturn (hkept (hkept (hkept fun other q hq _ => hothers other q hq)) other q hq hne)).1

/-- Two connections, one after the other, that both have the descriptor 5. -/
def reuseSteps : List OverlapStep :=
  acceptSteps 5 0 ++ ([.close 0, .quitClient 0, .removeSocket 0] ++ acceptSteps 5 1)

theorem meets_reuseSteps :
    (overlaps plentiful ()).Meets Overlap.InTurn (Overlap.start ()) reuseSteps := by
  refine ((overlaps plentiful ()).meets_append rfl _).mpr ⟨meets_acceptSteps rfl ?_ (), ?_⟩
  · intro other q hq
    cases hq
  refine ((overlaps plentiful ()).meets_append rfl _).mpr ⟨?_, meets_acceptSteps rfl ?_ ()⟩
  · refine ⟨trivial, fun s₁ h₁ => ⟨?_, fun _ _ => ⟨trivial, fun _ _ => trivial⟩⟩⟩
    cases h₁
    intro p hp
    cases hp
    rfl
  · intro other q hq
    have honly : other = 0 := by
      refine within_update (S := (· = 0)) ?_ rfl other q hq
      repeat refine within_update (S := (· = 0)) ?_ rfl
      intro _ _ hq
      cases hq
    subst honly
    cases hq
    rfl

theorem ownEntries_of_inTurn_reuse :
    ∃ s, (overlaps plentiful ()).run (Overlap.start ()) reuseSteps = some s ∧
      s.server.kernel.fds 5 = some 1 ∧ s.OwnEntries := by
  obtain ⟨s, hs⟩ : ∃ s, (overlaps plentiful ()).run (Overlap.start ()) reuseSteps = some s := ⟨_, rfl⟩
  have hfresh := (registered_of_meets plentiful () meets_reuseSteps hs).fresh
  have hend : s.server.kernel.accepted = 2 ∧ s.server.kernel.fds 5 = some 1 ∧
      (s.progress 0 = some ⟨5, .done, .removed⟩) ∧ s.progress 1 = some ⟨5, .done, .open⟩ := by
    cases hs
    exact ⟨rfl, rfl, rfl, rfl⟩
  obtain ⟨haccepted, hopen, hzero, hone⟩ := hend
  rw [haccepted] at hfresh
  refine ⟨s, hs, hopen, ownEntries_of_inTurn plentiful () meets_reuseSteps hs fun conn p hp => ?_⟩
  match conn, hfresh conn p hp with
  | 0, _ =>
      cases hzero.symm.trans hp
      exact ⟨rfl, Or.inr rfl⟩
  | 1, _ =>
      cases hone.symm.trans hp
      exact ⟨rfl, Or.inl rfl⟩

/-- The descriptor 5 is accepted again right after `close`, and both entries are the old ones. -/
theorem not_ownEntries_reuse :
    ∃ s, (overlaps plentiful ()).run (Overlap.start ())
        (acceptSteps 5 0 ++ [.close 0] ++ acceptSteps 5 1 ++ [.quitClient 0, .removeSocket 0]) = some s ∧
      s.Idle ∧ ¬s.OwnEntries := by
  refine ⟨_, rfl, ?_, fun h => ?_⟩
  · intro conn p hp
    have htwo : conn < 2 := by
      refine within_update (S := fun c => c < 2) ?_ ?_ conn p hp
      · repeat refine within_update (S := fun c => c < 2) ?_ (by decide)
        intro _ _ hq
        cases hq
      · decide
    match conn, htwo with
    | 0, _ =>
        cases hp
        exact ⟨rfl, Or.inr rfl⟩
    | 1, _ =>
        cases hp
        exact ⟨rfl, Or.inl rfl⟩
  · obtain ⟨⟨info, hinfo, _⟩, _⟩ := h 5 1 rfl
    cases hinfo

end CmdTran
