import CmdTran.Routing.History

/-!
# Who may send pictures

`PicDataRecv` looks at the camera id of the sender and not at its login. When its pictures reach a PC is
told by the blocks that were handled before, of whatever length their frames are.
-/

namespace CmdTran

open Server (byteAt cameraIdAt isViewer clientTypePhone clientTypePC BadType)

/-! ## Entries and connections -/

/-- What the client of `t` in the table has seen. The handlers read a block and not its frame. -/
def entryStep (t : Nat) (session : Session) : ClientEvent → Session
  | .frame sock block _ =>
      if sock = t then
        if EndsSession block.toList then none
        else session.map fun blocks => blocks ++ [block.toList]
      else session
  | e => session.kept t e

def entryOf (history : List ClientEvent) (t : Nat) : Session := history.foldl (entryStep t) none

/-- What the present connection of `t` has sent: it is new at every `AddClient`, whether or not there is
an entry already. -/
def connectionStep (t : Nat) (session : Session) : ClientEvent → Session
  | .addClient sock _ => if sock = t then some [] else session
  | e => entryStep t session e

def connectionOf (history : List ClientEvent) (t : Nat) : Session :=
  history.foldl (connectionStep t) none

/-- The last login of the present connection of `s` was that of a phone. -/
def IsPhone (history : List ClientEvent) (s : Nat) : Prop :=
  (connectionOf history s).bind lastType = some clientTypePhone

/-- Another client, a PC by its last login, has the camera id of `s`. -/
def Viewed (history : List ClientEvent) (s : Nat) : Prop :=
  ∃ t, t ≠ s ∧ ∃ sent pc, entryOf history s = some sent ∧ entryOf history t = some pc ∧
    lastType pc = some clientTypePC ∧ lastCameraId pc = lastCameraId sent

/-! ## The table -/

theorem reads_whole (block : Block) : Reads block block.toList :=
  ⟨rfl, rfl, fun _ => rfl, fun _ => rfl⟩

theorem entryOf_concat (history : List ClientEvent) (e : ClientEvent) (t : Nat) :
    entryOf (history ++ [e]) t = entryStep t (entryOf history t) e := by
  simp [entryOf]

/-- The table is that of the entries, whatever was handled. -/
theorem tracks_entryOf (history : List ClientEvent) (t : Nat) :
    Tracks (entryOf history t) (clientsAfter history)[t]? := by
  induction history using List.reverseRecOn with
  | nil => rfl
  | append_singleton history e ih =>
      rw [entryOf_concat, clientsAfter, List.foldl_concat]
      cases e with
      | addClient sock conn => exact ih.addClient sock conn
      | quitClient sock => exact ih.quitClient sock
      | frame sock block len =>
          rw [entryStep]
          split
          · rename_i hsock
            subst hsock
            exact ih.handled (reads_whole block) len
          · rename_i hsock
            rw [ClientEvent.step, CRecvDataProc.commandProc_other _ block len (Ne.symm hsock)]
            exact ih

/-! ## Pictures -/

theorem picDataRecv_ne_nil {clients : ClientMap} {s : Nat} {block : Block} {len : Int} :
    CRecvDataProc.picDataRecv clients s block len ≠ [] ↔
      ∃ phone t client, clients[s]? = some phone ∧ clients[t]? = some client ∧
        isViewer s phone.cameraId t client = true := by
  unfold CRecvDataProc.picDataRecv
  cases clients[s]? with
  | none => simp
  | some phone =>
      have hentries : (clients.toList.filter fun entry => isViewer s phone.cameraId entry.1 entry.2) ≠
          [] ↔ ∃ t client, clients[t]? = some client ∧ isViewer s phone.cameraId t client = true := by
        simp only [ne_eq, List.filter_eq_nil_iff, not_forall, Prod.exists,
          Std.TreeMap.mem_toList_iff_getElem?_eq_some, not_not, exists_prop]
      simp only [ne_eq, List.map_eq_nil_iff] at hentries ⊢
      rw [hentries]
      constructor
      · rintro ⟨t, client, hclient, hviewer⟩
        exact ⟨phone, t, client, rfl, hclient, hviewer⟩
      · rintro ⟨_, t, client, hphone, hclient, hviewer⟩
        cases hphone
        exact ⟨t, client, hclient, hviewer⟩

/-- A picture goes to somebody exactly when the sender is viewed. -/
theorem calls_ne_nil_iff_viewed (history : List ClientEvent) {s : Nat} {block : Block}
    (hcode : byteAt block 3 = 0x10) (len : Int) :
    (CRecvDataProc.commandProc (clientsAfter history) s block len).calls ≠ [] ↔
      Viewed history s := by
  have hs := tracks_entryOf history s
  rw [CRecvDataProc.commandProc_picture hcode, picDataRecv_ne_nil]
  constructor
  · rintro ⟨phone, t, client, hphone, hclient, hviewer⟩
    have ht := tracks_entryOf history t
    rw [hphone] at hs
    rw [hclient] at ht
    exact ⟨t, (hs.isViewer_iff ht).mp hviewer⟩
  · rintro ⟨t, hne, sent, pc, hsent, hpc, hviewed⟩
    have ht := tracks_entryOf history t
    cases hphone : (clientsAfter history)[s]? with
    | none =>
        rw [hphone] at hs
        cases hs.of_none.symm.trans hsent
    | some phone =>
        cases hclient : (clientsAfter history)[t]? with
        | none =>
            rw [hclient] at ht
            cases ht.of_none.symm.trans hpc
        | some client =>
            rw [hphone] at hs
            rw [hclient] at ht
            exact ⟨phone, t, client, rfl, hclient,
              (hs.isViewer_iff ht).mpr ⟨hne, sent, pc, hsent, hpc, hviewed⟩⟩

/-! ## Every history -/

/-- Every picture of the history that leads to a call of `SendData` is that of a logged-in phone. -/
def OnlyPhones (history : List ClientEvent) : Prop :=
  ∀ before s block (len : Nat), before ++ [.frame s block len] <+: history →
    byteAt block 3 = 0x10 →
    (CRecvDataProc.commandProc (clientsAfter before) s block len).calls ≠ [] → IsPhone before s

theorem onlyPhones_iff (history : List ClientEvent) :
    OnlyPhones history ↔
      ∀ before s block (len : Nat), before ++ [.frame s block len] <+: history →
        byteAt block 3 = 0x10 → IsPhone before s ∨ ¬Viewed before s := by
  constructor
  · intro h before s block len hstart hcode
    by_cases hviewed : Viewed before s
    · exact Or.inl (h before s block len hstart hcode
        ((calls_ne_nil_iff_viewed before hcode len).mpr hviewed))
    · exact Or.inr hviewed
  · intro h before s block len hstart hcode hcalls
    have hviewed := (calls_ne_nil_iff_viewed before hcode len).mp hcalls
    exact (h before s block len hstart hcode).resolve_right (not_not.mpr hviewed)

/-- A connection that never logged in sends a picture, and the PC gets it. -/
theorem not_onlyPhones_silent :
    ¬OnlyPhones [.addClient 5 0, .addClient 6 1, .frame 6 (blockOver pcLoginZero 0) 8,
      .frame 5 (blockOver shortPicture 0) 5] := by
  intro h
  let before : List ClientEvent := [.addClient 5 0, .addClient 6 1,
    .frame 6 (blockOver pcLoginZero 0) 8]
  have hcode : byteAt (blockOver shortPicture 0) 3 = 0x10 := by decide +kernel
  have hviewed : Viewed before 5 :=
    ⟨6, by decide, [], [(blockOver pcLoginZero 0).toList], rfl, by decide +kernel, by decide +kernel,
      by decide +kernel⟩
  have hphone := h before 5 (blockOver shortPicture 0) 5 (List.prefix_refl _) hcode
    ((calls_ne_nil_iff_viewed before hcode _).mpr hviewed)
  have hnever : (connectionOf before 5).bind lastType ≠ some clientTypePhone := by decide +kernel
  exact hnever hphone

end CmdTran
