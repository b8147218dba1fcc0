import CmdTran.Routing.Basic

/-!
# What is left in a block

Blocks go from client to client uncleared. The handlers read fixed places, whatever the length of the
frame: a login of six bytes and a reset of five take a byte of the camera id from behind the frame.
-/

namespace CmdTran

open Server (byteAt cameraIdAt clientTypePhone clientTypePC loginAckFrame BadType)

/-- The block begins with the frame. -/
def BeginsWith (f : List UInt8) (block : Block) : Prop := block.toList.take f.length = f

/-- The handler of the frame reads behind it: a login of length 6 with a type that is known, or a
reset of length 5, from a registered socket. -/
def ReadsPast (clients : ClientMap) (sock : Nat) (f : List UInt8) : Prop :=
  sock ∈ clients ∧
    (f.getD 3 0 = 0x00 ∧ f.length = 6 ∧
        (f.getD 4 0 = clientTypePhone ∨ f.getD 4 0 = clientTypePC) ∨
      f.getD 3 0 = 0x01 ∧ f.length = 5)

variable {f : List UInt8} {b b' : Block}

/-! ## Bytes of a block -/

theorem BeginsWith.byteAt_eq (h : BeginsWith f b) {i : Nat} (hi : i < f.length) : byteAt b i = f.getD i 0 := by
  have hget : (b.toList.take f.length)[i]? = b.toList[i]? := List.getElem?_take_of_lt hi
  rw [h] at hget
  rw [byteAt, List.getD_eq_getElem?_getD, List.getD_eq_getElem?_getD, hget]

theorem BeginsWith.cameraIdAt_eq (h : BeginsWith f b) (h' : BeginsWith f b') {i : Nat} (hi : i + 1 < f.length) :
    cameraIdAt b i = cameraIdAt b' i := by
  simp only [cameraIdAt, h.byteAt_eq hi, h'.byteAt_eq hi, h.byteAt_eq (Nat.lt_of_succ_lt hi),
    h'.byteAt_eq (Nat.lt_of_succ_lt hi)]

/-- A block with `x` in every place behind the frame. -/
def blockOver (f : List UInt8) (x : UInt8) : Block := Block.put (Buffer.fill memPoolBlockSize x) f

theorem beginsWith_blockOver (hf : WellFormed f) (x : UInt8) : BeginsWith f (blockOver f x) := by
  have hmax := hf.len_max
  simp only [frameLenMax] at hmax
  exact Block.take_put _ (by simp only [memPoolBlockSize]; omega)

/-- The byte behind the frame. -/
theorem byteAt_blockOver (hf : WellFormed f) (x : UInt8) : byteAt (blockOver f x) f.length = x := by
  have hmax := hf.len_max
  simp only [frameLenMax] at hmax
  have hlt : f.length < memPoolBlockSize := by
    simp only [memPoolBlockSize]
    omega
  have hdrop := Buffer.drop_of_write
    (Block.write_zero (Buffer.fill memPoolBlockSize x) (Nat.le_of_lt hlt))
  rw [Int.toNat_zero, Nat.zero_add] at hdrop
  have hget : (blockOver f x).toList[f.length]? = some x := by
    rw [← List.head?_drop, blockOver, hdrop, List.head?_drop, Buffer.fill,
      List.getElem?_replicate_of_lt hlt]
  rw [byteAt, List.getD_eq_getElem?_getD, hget, Option.getD_some]

theorem cameraIdAt_blockOver_ne (hf : WellFormed f) {i : Nat} (hi : i + 1 = f.length) :
    cameraIdAt (blockOver f 0) i ≠ cameraIdAt (blockOver f 1) i := by
  have hsame : byteAt (blockOver f 0) i = byteAt (blockOver f 1) i := by
    rw [(beginsWith_blockOver hf 0).byteAt_eq (by omega), (beginsWith_blockOver hf 1).byteAt_eq (by omega)]
  simp only [cameraIdAt, hsame, hi, byteAt_blockOver hf]
  intro heq
  exact absurd (Nat.add_left_cancel heq) (by decide)

/-! ## The two runs -/

namespace CRecvDataProc

variable {clients : ClientMap} {sock : Nat}

theorem mem_of_get {client : ClientInfo} (h : clients[sock]? = some client) : sock ∈ clients := by
  rw [Std.TreeMap.mem_iff_isSome_getElem?, h]
  rfl

theorem commandProc_beginsWith (h : BeginsWith f b) (h' : BeginsWith f b') (hf : WellFormed f)
    (hpast : ¬ReadsPast clients sock f) :
    commandProc clients sock b f.length = commandProc clients sock b' f.length := by
  have hmin := hf.len_min
  simp only [frameLenMin] at hmin
  have hcode : byteAt b 3 = f.getD 3 0 := h.byteAt_eq (by omega)
  have hcode' : byteAt b' 3 = f.getD 3 0 := h'.byteAt_eq (by omega)
  have htype : byteAt b 4 = f.getD 4 0 := h.byteAt_eq (by omega)
  have htype' : byteAt b' 4 = f.getD 4 0 := h'.byteAt_eq (by omega)
  have hbad : BadType b ↔ BadType b' := by
    rw [BadType, BadType, htype, htype']
  have hcode_iff : byteAt b 3 = byteAt b' 3 := hcode.trans hcode'.symm
  by_cases h0 : byteAt b 3 = 0x00
  · by_cases hrej : BadType b ∨ clients[sock]? = none
    · rw [commandProc_rejected h0 hrej,
        commandProc_rejected (hcode_iff ▸ h0) (hrej.imp_left hbad.mp)]
    · obtain ⟨hgood, hsome⟩ := not_or.mp hrej
      obtain ⟨client, hclient⟩ := Option.ne_none_iff_exists'.mp hsome
      have hmem := mem_of_get hclient
      have hknown : f.getD 4 0 = clientTypePhone ∨ f.getD 4 0 = clientTypePC := by
        rw [← htype]
        exact not_not.mp hgood
      -- byte 4 is a type and so not the end of the frame
      have hlen5 : f.length ≠ 5 := by
        intro hlen
        have hend := hf.tail
        rw [List.getLast?_eq_getElem?, hlen] at hend
        rw [List.getD_eq_getElem?_getD, hend] at hknown
        exact absurd hknown (by decide)
      have hlen6 : f.length ≠ 6 := fun hlen =>
        hpast ⟨hmem, Or.inl ⟨hcode ▸ h0, hlen, hknown⟩⟩
      rw [commandProc_login h0 hgood hclient,
        commandProc_login (hcode_iff ▸ h0) (fun hb => hgood (hbad.mpr hb)) hclient, htype, htype',
        h.cameraIdAt_eq h' (by omega)]
  · by_cases h1 : byteAt b 3 = 0x01
    · rw [commandProc_reset h1, commandProc_reset (hcode_iff ▸ h1), resetCameraId, resetCameraId]
      cases hclient : clients[sock]? with
      | none => rfl
      | some client =>
          have hmem := mem_of_get hclient
          have hlen5 : f.length ≠ 5 := fun hlen => hpast ⟨hmem, Or.inr ⟨hcode ▸ h1, hlen⟩⟩
          simp only [h.cameraIdAt_eq h' (show 4 + 1 < f.length by omega)]
    · by_cases h2 : byteAt b 3 = 0x10
      · rw [commandProc_picture h2, commandProc_picture (hcode_iff ▸ h2), picDataRecv, picDataRecv]
        simp only [SendDataCall.of, Int.toNat_natCast, show b.toList.take f.length = f from h,
          show b'.toList.take f.length = f from h']
      · rw [commandProc_unknown h0 h1 h2,
          commandProc_unknown (hcode_iff ▸ h0) (hcode_iff ▸ h1) (hcode_iff ▸ h2)]

/-- A byte behind the frame goes into the camera id. -/
theorem commandProc_readsPast (hf : WellFormed f) (h : ReadsPast clients sock f) :
    commandProc clients sock (blockOver f 0) f.length ≠
      commandProc clients sock (blockOver f 1) f.length := by
  have hmin := hf.len_min
  simp only [frameLenMin] at hmin
  have hbyte : ∀ x {i}, i < 5 → byteAt (blockOver f x) i = f.getD i 0 := fun x i hi =>
    (beginsWith_blockOver hf x).byteAt_eq (by omega)
  obtain ⟨hmem, hcase⟩ := h
  obtain ⟨client, hclient⟩ := Option.isSome_iff_exists.mp
    (Std.TreeMap.mem_iff_isSome_getElem?.mp hmem)
  have hcamera : ∀ {client₀ client₁ : ClientInfo}, client₀.cameraId ≠ client₁.cameraId →
      clients.insert sock client₀ ≠ clients.insert sock client₁ := by
    intro client₀ client₁ hne heq
    have hget := congrArg (fun m : ClientMap => m[sock]?) heq
    simp only [get_insert, if_true, Option.some.injEq] at hget
    exact hne (congrArg ClientInfo.cameraId hget)
  intro heq
  have htable := congrArg FrameOutcome.clients heq
  rcases hcase with ⟨hcode, hlen, htype⟩ | ⟨hcode, hlen⟩
  · have hlogin : ∀ x, ¬BadType (blockOver f x) := fun x hbad => hbad (by
      rw [hbyte x (by decide)]
      exact htype)
    rw [commandProc_login ((hbyte 0 (by decide)).trans hcode) (hlogin 0) hclient,
      commandProc_login ((hbyte 1 (by decide)).trans hcode) (hlogin 1) hclient] at htable
    exact hcamera (cameraIdAt_blockOver_ne hf (i := 5) hlen.symm) htable
  · rw [commandProc_reset ((hbyte 0 (by decide)).trans hcode),
      commandProc_reset ((hbyte 1 (by decide)).trans hcode), resetCameraId, resetCameraId,
      hclient] at htable
    exact hcamera (cameraIdAt_blockOver_ne hf (i := 4) hlen.symm) htable

/-- What a frame does depends on the frame alone exactly when its handler does not read past it. -/
theorem commandProc_beginsWith_iff (clients : ClientMap) (sock : Nat) {f : List UInt8}
    (hf : WellFormed f) :
    (∀ b b', BeginsWith f b → BeginsWith f b' →
      commandProc clients sock b f.length = commandProc clients sock b' f.length) ↔
      ¬ReadsPast clients sock f := by
  constructor
  · intro hsame hpast
    exact commandProc_readsPast hf hpast
      (hsame _ _ (beginsWith_blockOver hf 0) (beginsWith_blockOver hf 1))
  · intro hpast b b' h h'
    exact commandProc_beginsWith h h' hf hpast

/-- A login of a phone, one byte short of its camera id. -/
def shortLogin : List UInt8 := [0x7E, 0x00, 0x06, 0x00, 0x00, 0xA5]

theorem wellFormed_shortLogin : WellFormed shortLogin :=
  ⟨rfl, by decide, by decide, by decide, rfl⟩

/-- The client at 5 gets a camera id that ends in the byte that was left in the block. -/
theorem not_commandProc_beginsWith :
    ¬∀ b b', BeginsWith shortLogin b → BeginsWith shortLogin b' →
      commandProc (addClient ∅ 5 0) 5 b shortLogin.length =
        commandProc (addClient ∅ 5 0) 5 b' shortLogin.length := by
  intro hsame
  have hclient : (addClient ∅ 5 0)[5]? = some ⟨5, -1, 0, Parser.new, 0, true, 0⟩ :=
    get_insertIfNew _ _ _ _
  have hpast : ReadsPast (addClient ∅ 5 0) 5 shortLogin :=
    ⟨mem_of_get hclient, Or.inl ⟨rfl, rfl, Or.inl rfl⟩⟩
  exact commandProc_readsPast wellFormed_shortLogin hpast
    (hsame _ _ (beginsWith_blockOver wellFormed_shortLogin 0) (beginsWith_blockOver wellFormed_shortLogin 1))

/-- A login of a phone with its camera id. -/
theorem commandProc_beginsWith_iff_login :
    (∀ b b', BeginsWith [0x7E, 0x00, 0x08, 0x00, 0x00, 0x00, 0x07, 0xA5] b →
      BeginsWith [0x7E, 0x00, 0x08, 0x00, 0x00, 0x00, 0x07, 0xA5] b' →
      commandProc (addClient ∅ 5 0) 5 b 8 = commandProc (addClient ∅ 5 0) 5 b' 8) ↔
      ¬ReadsPast (addClient ∅ 5 0) 5 [0x7E, 0x00, 0x08, 0x00, 0x00, 0x00, 0x07, 0xA5] :=
  commandProc_beginsWith_iff (addClient ∅ 5 0) 5 ⟨rfl, by decide, by decide, by decide, rfl⟩

end CRecvDataProc

end CmdTran
