import CmdTran.Parser.Lemmas.Loop

/-!
# The parser over whole runs

The frames of a connection do not depend on how its stream is cut, frames that were framed by
`FrameInit` come out as they went in, and no call leaves the buffers.
-/

namespace CmdTran

variable {π : Type} {getBuff : π → Option Block × π}

/-! ## Numbers in `int` -/

def intMax : Int := 0x7FFFFFFF

/-- The lengths of a call, and every index in it plus the length of a frame, are in `int`. -/
def FitsInt (s : CFrameRestruct) (recv : List UInt8) : Prop :=
  s.exitLen + recv.length + (frameLenMax - frameLenMin) ≤ intMax

theorem int32_eq {x : Int} (h0 : -intMax ≤ x) (h1 : x ≤ intMax) : int32 x = x := by
  simp only [intMax] at h0 h1
  rw [int32, Int.bmod_eq_of_le] <;> omega

theorem FitsInt.calm {s : CFrameRestruct} {recv : List UInt8} (h0 : 0 ≤ s.exitLen)
    (h1 : s.exitLen ≤ frameLenMax - 1) (h : FitsInt s recv) : Calm int32 s recv := by
  simp only [FitsInt, frameLenMax, frameLenMin, intMax] at h h1
  have hexact : ∀ x, -(exitBufferLen : Int) ≤ x →
      x ≤ s.exitLen + recv.length + (frameLenMax - frameLenMin) → int32 x = x := by
    intro x hlo hhi
    simp only [exitBufferLen, frameLenMax, frameLenMin] at hlo hhi
    exact int32_eq (by simp only [intMax]; omega) (by simp only [intMax]; omega)
  refine ⟨⟨h0, by simp only [exitBufferLen]; omega, fun x hlo hhi => hexact x hlo ?_⟩, hexact⟩
  simp only [frameLenMax, frameLenMin]
  omega

/-! ## Runs -/

/-- The states of a parser after calls that keep to `fits`, each with any pool. -/
inductive Reachable (int : Int → Int) (fits : CFrameRestruct → List UInt8 → Prop) :
    CFrameRestruct → Prop where
  | new : Reachable int fits CFrameRestruct.new
  | call {π : Type} {getBuff : π → Option Block × π} {pool : π} {recv : List UInt8}
      {s : CFrameRestruct} {r : Restruct π} : Reachable int fits s → fits s recv →
      restructFrame int getBuff s pool recv = .ok r → Reachable int fits r.parser

abbrev ReachableExact : CFrameRestruct → Prop := Reachable id fun _ _ => True

/-- One call for each read: the parser at the end and everything that was queued. -/
def restructAll (int : Int → Int) (getBuff : π → Option Block × π) :
    CFrameRestruct → π → List (List UInt8) → Except Fault (CFrameRestruct × List (Block × Int))
  | s, _, [] => .ok (s, [])
  | s, pool, recv :: recvs => do
      let r ← restructFrame int getBuff s pool recv
      let (s', queued) ← restructAll int getBuff r.parser r.pool recvs
      .ok (s', r.queued ++ queued)

theorem calm_id {s : CFrameRestruct} (h0 : 0 ≤ s.exitLen) (h : s.exitLen ≤ exitBufferLen)
    (recv : List UInt8) : Calm id s recv :=
  ⟨⟨h0, h, fun _ _ _ => rfl⟩, fun _ _ _ => rfl⟩

theorem framesOf_length_le {s f : List UInt8} (h : f ∈ framesOf s) :
    f.length ≤ memPoolBlockSize := by
  have := (wellFormed_of_mem_framesOf h).len_max
  simp only [frameLenMax, memPoolBlockSize] at this ⊢
  omega

theorem Scanned.exitLen_bounds {r r' : Restruct π} {s : List UInt8}
    (h : Scanned getBuff r s r') :
    0 ≤ r'.parser.exitLen ∧ r'.parser.exitLen ≤ frameLenMax - 1 := by
  have := restOf_length s
  rw [h.exitLen]
  omega

theorem Scanned.frames {s : CFrameRestruct} {pool : π} {r' : Restruct π} {t : List UInt8}
    (hpool : ∀ p, (getBuff p).1 ≠ none) (h : Scanned getBuff ⟨s, pool, [], 0⟩ t r') :
    r'.queued.map taskFrame = framesOf t := by
  rw [h.queued]
  exact map_taskFrame_saveAll_eq hpool pool fun _ hf => framesOf_length_le hf

theorem Reachable.exitLen_bounds {int : Int → Int} {fits : CFrameRestruct → List UInt8 → Prop}
    (hcalm : ∀ s recv, 0 ≤ s.exitLen → s.exitLen ≤ frameLenMax - 1 → fits s recv →
      Calm int s recv)
    {s : CFrameRestruct} (h : Reachable int fits s) :
    0 ≤ s.exitLen ∧ s.exitLen ≤ frameLenMax - 1 := by
  induction h with
  | new => simp [CFrameRestruct.new, frameLenMax]
  | @call _ getBuff pool recv s r _ hfits hr ih =>
      obtain ⟨r', hr', hs⟩ := (hcalm s recv ih.1 ih.2 hfits).restructFrame_spec getBuff pool
      rw [hr] at hr'
      cases hr'
      exact hs.exitLen_bounds

/-- A parser between calls: what it keeps is the start of a frame, or nothing. -/
structure Settled (s : CFrameRestruct) : Prop where
  exitLen_nonneg : 0 ≤ s.exitLen
  exitLen_le : s.exitLen ≤ frameLenMax - 1
  scan_pending : frameScanner.scan s.pending = ([], s.pending)

theorem Settled.calm {s : CFrameRestruct} (h : Settled s) (recv : List UInt8) : Calm id s recv := by
  have h1 := h.exitLen_le
  exact calm_id h.exitLen_nonneg (by simp only [frameLenMax, exitBufferLen] at *; omega) recv

theorem Settled.of_exitLen_eq_zero {s : CFrameRestruct} (h : s.exitLen = 0) : Settled s := by
  refine ⟨by omega, by simp only [frameLenMax]; omega, ?_⟩
  simp [CFrameRestruct.pending, h]

theorem Scanned.settled {r r' : Restruct π} {s : List UInt8} (h : Scanned getBuff r s r') :
    Settled r'.parser := by
  refine ⟨h.exitLen_bounds.1, h.exitLen_bounds.2, ?_⟩
  rw [h.pending, restOf_restOf]

theorem Reachable.settled {int : Int → Int} {fits : CFrameRestruct → List UInt8 → Prop}
    (hcalm : ∀ s recv, Settled s → fits s recv → Calm int s recv) {s : CFrameRestruct}
    (h : Reachable int fits s) : Settled s := by
  induction h with
  | new => exact Settled.of_exitLen_eq_zero rfl
  | @call _ getBuff pool recv s r _ hfits hr ih =>
      obtain ⟨r', hr', hs⟩ := (hcalm s recv ih hfits).restructFrame_spec getBuff pool
      rw [hr] at hr'
      cases hr'
      exact hs.settled

theorem ReachableExact.settled {s : CFrameRestruct} (h : ReachableExact s) : Settled s :=
  Reachable.settled (fun _ recv hs _ => hs.calm recv) h

theorem Settled.calm_int32 {s : CFrameRestruct} {recv : List UInt8} (h : Settled s)
    (hfits : FitsInt s recv) : Calm int32 s recv :=
  hfits.calm h.exitLen_nonneg h.exitLen_le

/-! ## Bounds -/

/-- On the machine, no run of calls whose numbers are in `int` makes an access out of bounds, and
less than one frame is kept after each call. -/
theorem restructFrame_inBounds {s : CFrameRestruct} (hs : Reachable int32 FitsInt s) (pool : π)
    (getBuff : π → Option Block × π) {recv : List UInt8} (hfits : FitsInt s recv) :
    ∃ r, restructFrame int32 getBuff s pool recv = .ok r ∧
      0 ≤ r.parser.exitLen ∧ r.parser.exitLen ≤ frameLenMax - 1 := by
  obtain ⟨h0, h1⟩ := hs.exitLen_bounds fun s recv h0 h1 h => FitsInt.calm h0 h1 h
  obtain ⟨r, hr, h⟩ := (hfits.calm h0 h1).restructFrame_spec getBuff pool
  exact ⟨r, hr, h.exitLen_bounds⟩

def cleanPool (p : Unit) : Option Block × Unit := (some (Buffer.fill memPoolBlockSize 0), p)

theorem restructFrame_inBounds_new :
    ∃ r, restructFrame int32 cleanPool CFrameRestruct.new () [0x7E, 0, 5] = .ok r ∧
      0 ≤ r.parser.exitLen ∧ r.parser.exitLen ≤ frameLenMax - 1 :=
  restructFrame_inBounds .new () cleanPool (by unfold FitsInt; decide)

/-! ## A head at the end of the longest read -/

theorem counted_new {n : Nat} (hn : (n : Int) ≤ intMax) {recv : List UInt8}
    (hlen : recv.length = n) : Counted int32 CFrameRestruct.new recv := by
  refine ⟨le_refl _, by simp [CFrameRestruct.new], fun x hlo hhi => ?_⟩
  simp only [CFrameRestruct.new, exitBufferLen, intMax] at *
  exact int32_eq (by simp only [intMax]; omega) (by simp only [intMax]; omega)

theorem frameHead_not_mem_replicate (n : Nat) : frameHead ∉ List.replicate n (0 : UInt8) := fun h =>
  absurd (List.eq_of_mem_replicate h) (by decide)

theorem getHeadIndex_last {n : Nat} (hn : (n : Int) + 1 ≤ intMax) :
    getHeadIndex int32 CFrameRestruct.new 0 (List.replicate n 0 ++ [frameHead]) = .ok n := by
  have hlen : (List.replicate n 0 ++ [frameHead]).length = n + 1 := by simp
  have hc := counted_new (by push_cast; exact hn) hlen
  have hstream : CFrameRestruct.new.stream (List.replicate n 0 ++ [frameHead]) =
      List.replicate n 0 ++ [frameHead] := by
    simp [CFrameRestruct.stream, CFrameRestruct.pending, CFrameRestruct.new]
  obtain ⟨j, hj, hcase⟩ := hc.getHeadIndex_spec (i := 0) le_rfl (by omega)
  rw [hstream] at hcase
  rcases hcase with ⟨_, hscan⟩ | ⟨h0, hlt, hhead, _⟩
  · have hskip : ∀ b ∈ List.replicate n (0 : UInt8), ∀ t,
        frameScanner.verdict (b :: t) = .skip := by
      intro b hb t
      rw [List.eq_of_mem_replicate hb]
      simp [frameScanner, frameVerdict, frameHead]
    rw [Int.toNat_zero, List.drop_zero, frameScanner.scan_noise hskip,
      frameScanner.scan_wait (by decide)] at hscan
    cases hscan
  · rw [hj]
    by_cases hjn : j < n
    · rw [List.getD_append _ _ _ _ (by simp; omega), List.getD_replicate _ (by omega)] at hhead
      exact absurd hhead (by decide)
    · rw [hlen] at hlt
      rw [show j = n by omega]

theorem restructLoop_frameLen_fault {int : Int → Int} {recv : List UInt8} {fuel : Nat} {i j : Int}
    {r : Restruct π} {e : Fault} (hi : i ≤ totalLen int r.parser recv)
    (hj : getHeadIndex int r.parser i recv = .ok j) (hj0 : 0 ≤ j)
    (hmin : int (j + frameLenMin) ≤ totalLen int r.parser recv)
    (hlen : getFrameLen int r.parser j recv = .error e) :
    restructLoop int getBuff recv (fuel + 1) i r = .error e := by
  rw [restructLoop]
  simp only [hj, ok_bind, hlen]
  rw [if_neg (by omega), if_neg (by omega), if_neg (by omega)]
  rfl

/-- A head in the last of `n + 1` bytes, where `n + 5` is no longer an `int`: the test for the
shortest frame passes, and the length is read past the end. -/
theorem restructFrame_last {pool : π} {n : Nat} (hn : (n : Int) + 1 ≤ intMax) (hover : intMax < (n : Int) + 5) :
    restructFrame int32 getBuff CFrameRestruct.new pool (List.replicate n 0 ++ [frameHead]) =
      .error (.recvRead (n + 1) 1) := by
  have hlen : (List.replicate n 0 ++ [frameHead]).length = n + 1 := by simp
  have hc := counted_new (by push_cast; exact hn) hlen
  have htotal : totalLen int32 CFrameRestruct.new (List.replicate n 0 ++ [frameHead]) = n + 1 := by
    rw [hc.totalLen_eq, hc.stream_length, hlen]
    simp [CFrameRestruct.new]
  have hwrap : int32 (n + frameLenMin) = n + 5 - 0x100000000 := by
    simp only [intMax, frameLenMin, int32] at *
    rw [Int.bmod_eq_iff (by decide)]
    omega
  have hread : Checked.read (List.replicate n 0 ++ [frameHead]) (n + 1) = none := by
    rw [Checked.read_eq_getElem? (by omega), List.getElem?_eq_none]
    omega
  have hexact : ∀ x : Int, -2 ≤ x → x ≤ n + 1 → int32 x = x := fun x hlo hhi =>
    int32_eq (by simp only [intMax]; omega) (by omega)
  have h2 : int32 (CFrameRestruct.new.exitLen - 2) = -2 := hexact (-2) le_rfl (by omega)
  have hlenByte : getFrameLen int32 CFrameRestruct.new n (List.replicate n 0 ++ [frameHead]) =
      .error (.recvRead (n + 1) 1) := by
    rw [getFrameLen, h2, if_neg (by omega), if_neg (by omega), if_pos (by omega),
      hexact (n + 1) (by omega) le_rfl]
    simp only [CFrameRestruct.new, Int.sub_zero, hexact (n + 1) (by omega) le_rfl, recvByte, hread]
    rfl
  rw [restructFrame]
  refine restructLoop_frameLen_fault ?_ (getHeadIndex_last hn) (Int.natCast_nonneg n) ?_ hlenByte
  · rw [htotal]
    omega
  · rw [hwrap, htotal]
    omega

/-- The sum of the lengths is an `int` and the call reads past the end. -/
theorem restructFrame_last_intMax :
    CFrameRestruct.new.exitLen + (List.replicate 2147483646 0 ++ [frameHead]).length ≤ intMax ∧
      restructFrame int32 cleanPool CFrameRestruct.new ()
        (List.replicate 2147483646 0 ++ [frameHead]) = .error (.recvRead 2147483647 1) := by
  have hn : ((2147483646 : Nat) : Int) + 1 ≤ intMax := by simp [intMax]
  have hlen : ((List.replicate 2147483646 0 ++ [frameHead]).length : Int) =
      ((2147483646 : Nat) : Int) + 1 := by
    rw [List.length_append, List.length_replicate]
    rfl
  refine ⟨?_, restructFrame_last hn (by simp [intMax])⟩
  rw [hlen]
  simpa [CFrameRestruct.new] using hn

/-! ## One call for each read -/

section Calls

variable {int : Int → Int} {fits : CFrameRestruct → List UInt8 → Prop}

/-- Every call of `restructAll` keeps to `fits`. -/
def CallsFit (int : Int → Int) (fits : CFrameRestruct → List UInt8 → Prop)
    (getBuff : π → Option Block × π) : CFrameRestruct → π → List (List UInt8) → Prop
  | _, _, [] => True
  | s, pool, recv :: recvs => fits s recv ∧ ∀ r, restructFrame int getBuff s pool recv = .ok r →
      CallsFit int fits getBuff r.parser r.pool recvs

theorem callsFit_exact (s : CFrameRestruct) (pool : π) (recvs : List (List UInt8)) :
    CallsFit id (fun _ _ => True) getBuff s pool recvs := by
  induction recvs generalizing s pool with
  | nil => trivial
  | cons recv recvs ih => exact ⟨trivial, fun r _ => ih r.parser r.pool⟩

theorem Settled.callsFit {s : CFrameRestruct} (hs : Settled s) {pool : π} {recvs : List (List UInt8)}
    (h : ∀ recv ∈ recvs, frameLenMax - 1 + recv.length + (frameLenMax - frameLenMin) ≤ intMax) :
    CallsFit int32 FitsInt getBuff s pool recvs := by
  induction recvs generalizing s pool with
  | nil => trivial
  | cons recv recvs ih =>
      have hfit : FitsInt s recv := by
        have hle := hs.exitLen_le
        have hmax := h recv List.mem_cons_self
        simp only [FitsInt]
        omega
      refine ⟨hfit, fun r hr => ?_⟩
      obtain ⟨r', hr', hscan⟩ := (hs.calm_int32 hfit).restructFrame_spec getBuff pool
      rw [hr] at hr'
      cases hr'
      exact ih hscan.settled fun recv hmem => h recv (List.mem_cons_of_mem _ hmem)

theorem Settled.restructAll_spec (hcalm : ∀ s recv, Settled s → fits s recv → Calm int s recv)
    (hpool : ∀ p, (getBuff p).1 ≠ none) {s : CFrameRestruct} (hs : Settled s) {pool : π}
    {recvs : List (List UInt8)} (hfits : CallsFit int fits getBuff s pool recvs) :
    ∃ s' queued, restructAll int getBuff s pool recvs = .ok (s', queued) ∧
      queued.map taskFrame = framesOf (s.pending ++ recvs.flatten) ∧
      s'.pending = restOf (s.pending ++ recvs.flatten) ∧ s'.exitLen = s'.pending.length := by
  induction recvs generalizing s pool with
  | nil =>
      refine ⟨s, [], rfl, ?_, ?_, ((hs.calm []).pending_length).symm⟩
      · simp [framesOf, hs.scan_pending]
      · simp [restOf, hs.scan_pending]
  | cons recv recvs ih =>
      obtain ⟨hfit, hrest⟩ := hfits
      obtain ⟨r, hr, hscan⟩ := (hcalm s recv hs hfit).restructFrame_spec getBuff pool
      obtain ⟨s', queued, hall, hframes, hpend, hlen⟩ := ih hscan.settled (hrest r hr)
      refine ⟨s', r.queued ++ queued, ?_, ?_, ?_, hlen⟩
      · simp only [restructAll, hr, ok_bind, hall]
      · rw [List.map_append, hscan.frames hpool, hframes, hscan.pending, List.flatten_cons,
          ← List.append_assoc, framesOf_append (s.pending ++ recv), CFrameRestruct.stream]
      · rw [hpend, hscan.pending, List.flatten_cons, ← List.append_assoc,
          restOf_append (s.pending ++ recv), CFrameRestruct.stream]

end Calls

/-! ## Cuts -/

/-- From `s` on, a parser sees the stream and not its cuts: two calls do what one call does with both
strings, and two ways of cutting a stream give the same frames and the same rest. -/
structure CutFree (int : Int → Int) (fits : CFrameRestruct → List UInt8 → Prop)
    (getBuff : π → Option Block × π) (s : CFrameRestruct) : Prop where
  twoCalls : ∀ (p₁ p₂ p : π) (recv₁ recv₂ : List UInt8), fits s (recv₁ ++ recv₂) → ∃ r₁ r₂ r,
    restructFrame int getBuff s p₁ recv₁ = .ok r₁ ∧
    restructFrame int getBuff r₁.parser p₂ recv₂ = .ok r₂ ∧
    restructFrame int getBuff s p (recv₁ ++ recv₂) = .ok r ∧
    r₁.queued.map taskFrame ++ r₂.queued.map taskFrame = r.queued.map taskFrame ∧
    r₂.parser.pending = r.parser.pending ∧ r₂.parser.exitLen = r.parser.exitLen
  allCalls : ∀ (p₁ p₂ : π) (recvs₁ recvs₂ : List (List UInt8)), recvs₁.flatten = recvs₂.flatten →
    CallsFit int fits getBuff s p₁ recvs₁ → CallsFit int fits getBuff s p₂ recvs₂ →
    ∃ s₁ s₂ q₁ q₂, restructAll int getBuff s p₁ recvs₁ = .ok (s₁, q₁) ∧
      restructAll int getBuff s p₂ recvs₂ = .ok (s₂, q₂) ∧
      q₁.map taskFrame = q₂.map taskFrame ∧ s₁.pending = s₂.pending ∧ s₁.exitLen = s₂.exitLen

theorem Settled.cutFree {int : Int → Int} {fits : CFrameRestruct → List UInt8 → Prop}
    (hcalm : ∀ s recv, Settled s → fits s recv → Calm int s recv)
    (hfirst : ∀ s recv₁ recv₂, fits s (recv₁ ++ recv₂) → fits s recv₁)
    (hsecond : ∀ s recv₁ recv₂ (s' : CFrameRestruct), s'.exitLen ≤ s.exitLen + recv₁.length →
      fits s (recv₁ ++ recv₂) → fits s' recv₂)
    (hpool : ∀ p, (getBuff p).1 ≠ none) {s : CFrameRestruct} (hs : Settled s) :
    CutFree int fits getBuff s := by
  constructor
  · intro p₁ p₂ p recv₁ recv₂ hfits
    have hcalm₁ := hcalm s recv₁ hs (hfirst s recv₁ recv₂ hfits)
    obtain ⟨r₁, hr₁, h₁⟩ := hcalm₁.restructFrame_spec getBuff p₁
    have hkept : r₁.parser.exitLen ≤ s.exitLen + recv₁.length := by
      rw [h₁.exitLen, ← hcalm₁.stream_length]
      exact_mod_cast restOf_length_le (s.stream recv₁)
    obtain ⟨r₂, hr₂, h₂⟩ := (hcalm r₁.parser recv₂ h₁.settled
      (hsecond s recv₁ recv₂ r₁.parser hkept hfits)).restructFrame_spec getBuff p₂
    obtain ⟨r, hr, h⟩ := (hcalm s (recv₁ ++ recv₂) hs hfits).restructFrame_spec getBuff p
    have hrest : r₂.parser.pending = r.parser.pending := by
      simp only [h₂.pending, h.pending, CFrameRestruct.stream, h₁.pending, ← List.append_assoc,
        restOf_append (s.pending ++ recv₁)]
    refine ⟨r₁, r₂, r, hr₁, hr₂, hr, ?_, hrest, ?_⟩
    · simp only [h₁.frames hpool, h₂.frames hpool, h.frames hpool, CFrameRestruct.stream,
        h₁.pending, ← List.append_assoc, framesOf_append (s.pending ++ recv₁)]
    · rw [h₂.exitLen, h.exitLen, ← h₂.pending, ← h.pending, hrest]
  · intro p₁ p₂ recvs₁ recvs₂ hcut hfits₁ hfits₂
    obtain ⟨s₁, q₁, hr₁, hf₁, hp₁, hl₁⟩ := hs.restructAll_spec hcalm hpool hfits₁
    obtain ⟨s₂, q₂, hr₂, hf₂, hp₂, hl₂⟩ := hs.restructAll_spec hcalm hpool hfits₂
    rw [hcut] at hf₁ hp₁
    refine ⟨s₁, s₂, q₁, q₂, hr₁, hr₂, hf₁.trans hf₂.symm, hp₁.trans hp₂.symm, ?_⟩
    rw [hl₁, hl₂, hp₁, hp₂]

/-- A reader with blocks to spare sees the stream and not its cuts: with exact integers whatever is
received, and on the machine as long as the numbers of the calls are in `int`. -/
theorem restructFrame_cut (hpool : ∀ p, (getBuff p).1 ≠ none) :
    (∀ s, ReachableExact s → CutFree id (fun _ _ => True) getBuff s) ∧
      ∀ s, Reachable int32 FitsInt s → CutFree int32 FitsInt getBuff s := by
  constructor
  · intro s hs
    exact hs.settled.cutFree (fun _ recv hs _ => hs.calm recv) (fun _ _ _ _ => trivial)
      (fun _ _ _ _ _ _ => trivial) hpool
  · intro s hs
    refine (hs.settled fun _ _ hs hfits => hs.calm_int32 hfits).cutFree
      (fun _ _ hs hfits => hs.calm_int32 hfits) ?_ ?_ hpool
    · intro s recv₁ recv₂ hfits
      simp only [FitsInt, List.length_append] at hfits ⊢
      omega
    · intro s recv₁ recv₂ s' hkept hfits
      simp only [FitsInt, List.length_append] at hfits ⊢
      omega

theorem restructFrame_cut_new : ∃ r₁ r₂ r,
    restructFrame int32 cleanPool CFrameRestruct.new () [0x7E, 0] = .ok r₁ ∧
    restructFrame int32 cleanPool r₁.parser () [5, 0x10, 0xA5] = .ok r₂ ∧
    restructFrame int32 cleanPool CFrameRestruct.new () ([0x7E, 0] ++ [5, 0x10, 0xA5]) = .ok r ∧
    r₁.queued.map taskFrame ++ r₂.queued.map taskFrame = r.queued.map taskFrame ∧
    r₂.parser.pending = r.parser.pending ∧ r₂.parser.exitLen = r.parser.exitLen :=
  ((restructFrame_cut fun _ => Option.some_ne_none _).2 _ .new).twoCalls () () () _ _
    (by unfold FitsInt; decide)

/-- A call that gets other bytes only, as many as an `int` can count. -/
theorem restructFrame_headless {pool : π} {recv : List UInt8} (hlen : (recv.length : Int) ≤ intMax)
    (hhead : frameHead ∉ recv) :
    restructFrame int32 getBuff CFrameRestruct.new pool recv =
      .ok ⟨{ CFrameRestruct.new with exitLen := 0 }, pool, [], 0⟩ := by
  have hc := counted_new hlen rfl
  have hstream : CFrameRestruct.new.stream recv = recv := by
    simp [CFrameRestruct.stream, CFrameRestruct.pending, CFrameRestruct.new]
  obtain ⟨j, hj, hcase⟩ := hc.getHeadIndex_spec (i := 0) le_rfl (by omega)
  rw [hstream] at hcase
  rcases hcase with ⟨rfl, _⟩ | ⟨h0, hlt, hget, _⟩
  · have htotal := hc.totalLen_eq
    rw [restructFrame, restructLoop]
    simp only [hj, ok_bind]
    rw [if_neg (by omega)]
    rfl
  · rw [List.getD_eq_getElem _ _ (by omega)] at hget
    exact absurd (hget ▸ List.getElem_mem _) hhead

/-- Other bytes and a head, in two calls. -/
theorem restructFrame_two {n : Nat} (hn : (n : Int) ≤ intMax) : ∃ r₁ r₂,
    restructFrame int32 cleanPool CFrameRestruct.new () (List.replicate n 0) = .ok r₁ ∧
    restructFrame int32 cleanPool r₁.parser () [frameHead] = .ok r₂ ∧
    r₁.queued = [] ∧ r₂.queued = [] ∧ r₂.parser.exitLen = 1 := by
  have hfirst : restructFrame int32 cleanPool CFrameRestruct.new () (List.replicate n 0) = .ok _ :=
    restructFrame_headless (by rwa [List.length_replicate]) (frameHead_not_mem_replicate n)
  have hwait : frameScanner.scan [frameHead] = ([], [frameHead]) := frameScanner.scan_wait (by decide)
  have hcalm : Calm int32 CFrameRestruct.new [frameHead] :=
    (Settled.of_exitLen_eq_zero rfl).calm_int32 (by unfold FitsInt; decide)
  obtain ⟨r₂, hr₂, hscan⟩ := hcalm.restructFrame_spec cleanPool ()
  have hstream : CFrameRestruct.new.stream [frameHead] = [frameHead] := by
    simp [CFrameRestruct.stream, CFrameRestruct.pending, CFrameRestruct.new]
  rw [hstream] at hscan
  refine ⟨_, r₂, hfirst, hr₂, rfl, ?_, ?_⟩
  · rw [hscan.queued, framesOf, hwait]
    rfl
  · rw [hscan.exitLen, restOf, hwait]
    rfl

/-- Two calls return with nothing queued, and the one with both strings reads past the end. -/
theorem not_cutFree_intMax :
    ReachableExact CFrameRestruct.new ∧ Reachable int32 FitsInt CFrameRestruct.new ∧
      (∃ r₁ r₂,
        restructFrame int32 cleanPool CFrameRestruct.new () (List.replicate 2147483646 0) = .ok r₁ ∧
        restructFrame int32 cleanPool r₁.parser () [frameHead] = .ok r₂ ∧
        r₁.queued = [] ∧ r₂.queued = [] ∧ r₂.parser.exitLen = 1) ∧
      restructFrame int32 cleanPool CFrameRestruct.new ()
        (List.replicate 2147483646 0 ++ [frameHead]) = .error (.recvRead 2147483647 1) := by
  have hn : ((2147483646 : Nat) : Int) + 1 ≤ intMax := by simp [intMax]
  exact ⟨.new, .new, restructFrame_two (by omega), restructFrame_last hn (by simp [intMax])⟩

/-! ## Frames in, frames out -/

/-- A frame as a client makes it: the payload in place, the rest by `FrameInit`. -/
def sentFrame (code : UInt8) (payload : List UInt8) : List UInt8 :=
  frameInit (0 :: 0 :: 0 :: 0 :: payload ++ [0]) (payload.length + 5) code

/-- What a stream of frames with other bytes before, between and after them scans to. -/
theorem framesOf_sentFrames (pieces : List (List UInt8 × UInt8 × List UInt8)) {last : List UInt8}
    (hlen : ∀ p ∈ pieces, (p.2.2.length : Int) + 5 ≤ frameLenMax)
    (hnoise : ∀ p ∈ pieces, frameHead ∉ p.1) (hlast : frameHead ∉ last) :
    frameScanner.scan ((pieces.map fun p => p.1 ++ sentFrame p.2.1 p.2.2).flatten ++ last) =
      (pieces.map fun p => sentFrame p.2.1 p.2.2, []) := by
  have hskip {noise : List UInt8} (h : frameHead ∉ noise) :
      ∀ b ∈ noise, ∀ t, frameScanner.verdict (b :: t) = .skip := by
    intro b hb t
    have hne : b ≠ frameHead := fun he => h (he ▸ hb)
    exact if_pos hne
  have hscan := frameScanner.scan_stream
    (pieces.map fun p => (p.1, sentFrame p.2.1 p.2.2)) last
    (by
      intro q hq
      obtain ⟨p, hp, rfl⟩ := List.mem_map.mp hq
      exact hskip (hnoise p hp))
    (hskip hlast)
    (by
      intro q hq
      obtain ⟨p, hp, rfl⟩ := List.mem_map.mp hq
      exact frameVerdict_of_wellFormed (wellFormed_frameInit 0 0 0 0 0 p.2.1 (hlen p hp)))
  simp only [List.map_map] at hscan
  exact hscan

/-- The calls return, what they queue is `frames`, and nothing is left over. -/
def Decodes (int : Int → Int) (getBuff : π → Option Block × π) (s : CFrameRestruct) (pool : π)
    (recvs frames : List (List UInt8)) : Prop :=
  ∃ s' queued, restructAll int getBuff s pool recvs = .ok (s', queued) ∧
    queued.map taskFrame = frames ∧ s'.exitLen = 0

theorem Settled.decodes {int : Int → Int} {fits : CFrameRestruct → List UInt8 → Prop}
    (hcalm : ∀ s recv, Settled s → fits s recv → Calm int s recv)
    (hpool : ∀ p, (getBuff p).1 ≠ none) {pool : π} {s : CFrameRestruct} (hs : s.exitLen = 0)
    {recvs frames : List (List UInt8)} (hscan : frameScanner.scan recvs.flatten = (frames, []))
    (hfits : CallsFit int fits getBuff s pool recvs) : Decodes int getBuff s pool recvs frames := by
  obtain ⟨s', queued, hall, hframes, hpend, hlen⟩ :=
    (Settled.of_exitLen_eq_zero hs).restructAll_spec hcalm hpool hfits
  have hnil : s.pending = [] := by simp [CFrameRestruct.pending, hs]
  rw [hnil, List.nil_append] at hframes hpend
  refine ⟨s', queued, hall, ?_, ?_⟩
  · rw [hframes, framesOf, hscan]
  · rw [hlen, hpend, restOf, hscan]
    rfl

/-- Frames of every length that is allowed, with bytes other than heads before, between and after
them, come out whole and in order, however the stream is cut, and nothing is left over: with exact
integers always, and on the machine as long as the numbers of the calls are in `int`. -/
theorem restructAll_sentFrames (hpool : ∀ p, (getBuff p).1 ≠ none) (pool : π) {s : CFrameRestruct}
    (hs : s.exitLen = 0) (pieces : List (List UInt8 × UInt8 × List UInt8)) (last : List UInt8)
    {recvs : List (List UInt8)}
    (hlen : ∀ p ∈ pieces, (p.2.2.length : Int) + 5 ≤ frameLenMax)
    (hnoise : ∀ p ∈ pieces, frameHead ∉ p.1) (hlast : frameHead ∉ last)
    (hcut : recvs.flatten = (pieces.map fun p => p.1 ++ sentFrame p.2.1 p.2.2).flatten ++ last) :
    Decodes id getBuff s pool recvs (pieces.map fun p => sentFrame p.2.1 p.2.2) ∧
      (CallsFit int32 FitsInt getBuff s pool recvs →
        Decodes int32 getBuff s pool recvs (pieces.map fun p => sentFrame p.2.1 p.2.2)) := by
  have hscan := framesOf_sentFrames pieces hlen hnoise hlast
  rw [← hcut] at hscan
  exact ⟨Settled.decodes (fun _ recv hs _ => hs.calm recv) hpool hs hscan
      (callsFit_exact s pool recvs),
    Settled.decodes (fun _ _ hs hfits => hs.calm_int32 hfits) hpool hs hscan⟩

theorem restructAll_sentFrames_two :
    Decodes int32 cleanPool CFrameRestruct.new ()
      [[1, 0x7E, 0, 7, 0x10], [0x7E, 0xA5, 0xA5, 2, 0x7E], [0, 5, 0, 0xA5]]
      [sentFrame 0x10 [0x7E, 0xA5], sentFrame 0 []] :=
  (restructAll_sentFrames (fun _ => Option.some_ne_none _) () rfl
    [([1], 0x10, [0x7E, 0xA5]), ([2], 0, [])] [] (by decide) (by decide) (by decide) (by decide)).2
    ((Settled.of_exitLen_eq_zero rfl).callsFit (by decide))

theorem not_decodes_last {n : Nat} (hn : (n : Int) + 1 ≤ intMax) (hover : intMax < (n : Int) + 5)
    (recvs frames : List (List UInt8)) :
    ¬ Decodes int32 cleanPool CFrameRestruct.new ()
      ((List.replicate n 0 ++ [frameHead]) :: recvs) frames := by
  rintro ⟨s', queued, hall, _⟩
  rw [restructAll, restructFrame_last hn hover] at hall
  cases hall

/-- Noise that fills the longest read but for one byte, and a frame whose head comes in the same
read. -/
theorem not_decodes_intMax :
    frameHead ∉ List.replicate 2147483646 (0 : UInt8) ∧
      [List.replicate 2147483646 0 ++ [frameHead], [0, 5, 0, 0xA5]].flatten =
        List.replicate 2147483646 0 ++ sentFrame 0 [] ∧
      ¬ Decodes int32 cleanPool CFrameRestruct.new ()
        [List.replicate 2147483646 0 ++ [frameHead], [0, 5, 0, 0xA5]] [sentFrame 0 []] := by
  have hn : ((2147483646 : Nat) : Int) + 1 ≤ intMax := by simp [intMax]
  refine ⟨frameHead_not_mem_replicate _, ?_, not_decodes_last hn (by simp [intMax]) _ _⟩
  rw [List.flatten_cons, List.append_assoc]
  rfl

end CmdTran
