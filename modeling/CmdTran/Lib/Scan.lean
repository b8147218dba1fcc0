import Mathlib.Data.List.Basic

/-!
# Incremental scanners

A scanner looks at the front of its input and says: skip one symbol, take a frame of `n` symbols,
or wait for more input. When its verdicts, except `wait`, do not change as input arrives, what it
takes from a stream does not depend on how the stream is cut into chunks.
-/

universe u

/-- What a scanner says about the front of a non-empty input. -/
inductive Verdict where
  | skip
  | wait
  | emit (n : Nat)
  deriving DecidableEq, Repr

/-- Verdicts that fit the input and that more input does not change. -/
structure Scanner (β : Type u) where
  verdict : List β → Verdict
  emit_bounds : ∀ {s n}, verdict s = .emit n → 0 < n ∧ n ≤ s.length
  stable : ∀ {s}, s ≠ [] → verdict s ≠ .wait → ∀ t, verdict (s ++ t) = verdict s

namespace Scanner

variable {β : Type u} (S : Scanner β)

/-- The frames of an input, in order, and the rest the scanner waits on. -/
def scan : List β → List (List β) × List β
  | [] => ([], [])
  | b :: s =>
      match _h : S.verdict (b :: s) with
      | .wait => ([], b :: s)
      | .skip => scan s
      | .emit n =>
          let r := scan ((b :: s).drop n)
          ((b :: s).take n :: r.1, r.2)
termination_by s => s.length
decreasing_by
  · simp
  · have := S.emit_bounds _h
    simp only [List.length_cons, List.length_drop] at this ⊢
    omega

/-! ## One verdict -/

@[simp] theorem scan_nil : S.scan [] = ([], []) := by
  rw [scan]

theorem scan_wait {s : List β} (h : S.verdict s = .wait) : S.scan s = ([], s) := by
  cases s with
  | nil => simp
  | cons b s =>
      rw [scan]
      split
      · rfl
      · rename_i h'; rw [h] at h'; cases h'
      · rename_i h'; rw [h] at h'; cases h'

theorem scan_skip {b : β} {s : List β} (h : S.verdict (b :: s) = .skip) :
    S.scan (b :: s) = S.scan s := by
  rw [scan]
  split
  · rename_i h'; rw [h] at h'; cases h'
  · rfl
  · rename_i h'; rw [h] at h'; cases h'

theorem scan_emit {s : List β} {n : Nat} (hs : s ≠ []) (h : S.verdict s = .emit n) :
    S.scan s = (s.take n :: (S.scan (s.drop n)).1, (S.scan (s.drop n)).2) := by
  cases s with
  | nil => exact absurd rfl hs
  | cons b s =>
      rw [scan]
      split
      · rename_i h'; rw [h] at h'; cases h'
      · rename_i h'; rw [h] at h'; cases h'
      · rename_i h'; rw [h] at h'; cases h'; rfl

/-- Induction along a scan: one case for each verdict. -/
theorem scan_induction {P : List β → Prop} (nil : P [])
    (wait : ∀ s, s ≠ [] → S.verdict s = .wait → P s)
    (skip : ∀ b s, S.verdict (b :: s) = .skip → P s → P (b :: s))
    (emit : ∀ s n, s ≠ [] → S.verdict s = .emit n → P (s.drop n) → P s) (s : List β) : P s := by
  induction hl : s.length using Nat.strongRecOn generalizing s with
  | _ l ih =>
      cases s with
      | nil => exact nil
      | cons b s =>
          cases hv : S.verdict (b :: s) with
          | wait => exact wait _ (by simp) hv
          | skip => exact skip b s hv (ih s.length (by simp [← hl]) s rfl)
          | emit n =>
              have hb := S.emit_bounds hv
              refine emit _ n (by simp) hv (ih _ ?_ _ rfl)
              simp only [List.length_drop]
              omega

/-! ## The number of frames -/

/-- When no frame is shorter than `k`, the frames of an input are that much fewer. -/
theorem mul_length_scan_le {k : Nat} (hk : ∀ s n, S.verdict s = .emit n → k ≤ n) (s : List β) :
    k * (S.scan s).1.length ≤ s.length := by
  induction s using S.scan_induction with
  | nil => simp
  | wait s _ h => simp [S.scan_wait h]
  | skip b s h ih =>
      rw [S.scan_skip h, List.length_cons]
      exact Nat.le_succ_of_le ih
  | emit s n hs h ih =>
      have hn := (S.emit_bounds h).2
      have hkn := hk s n h
      rw [S.scan_emit hs h, List.length_cons, Nat.mul_succ]
      rw [List.length_drop] at ih
      omega

/-! ## The rest -/

/-- The scanner stops at the end of the input or where it waits. -/
theorem scan_rest (s : List β) : (S.scan s).2 = [] ∨ S.verdict (S.scan s).2 = .wait := by
  induction s using S.scan_induction with
  | nil => simp
  | wait s _ h => rw [S.scan_wait h]; exact Or.inr h
  | skip b s h ih => rw [S.scan_skip h]; exact ih
  | emit s n hs h ih => rw [S.scan_emit hs h]; exact ih

/-! ## Chunks -/

theorem scan_rest_suffix (s : List β) : (S.scan s).2 <:+ s := by
  induction s using S.scan_induction with
  | nil => simp
  | wait s _ h => simp [S.scan_wait h]
  | skip b s h ih =>
      rw [S.scan_skip h]
      exact ih.trans (List.suffix_cons b s)
  | emit s n hs h ih =>
      rw [S.scan_emit hs h]
      exact ih.trans (List.drop_suffix n s)

/-- Scanning `s ++ t` is scanning `s`, then what it left followed by `t`. -/
theorem scan_append (s t : List β) :
    S.scan (s ++ t) =
      ((S.scan s).1 ++ (S.scan ((S.scan s).2 ++ t)).1, (S.scan ((S.scan s).2 ++ t)).2) := by
  induction s using S.scan_induction with
  | nil => simp
  | wait s _ h => simp [S.scan_wait h]
  | skip b s h ih =>
      have h' : S.verdict (b :: (s ++ t)) = .skip := by
        have := S.stable (List.cons_ne_nil b s) (by rw [h]; simp) t
        rwa [h] at this
      rw [List.cons_append, S.scan_skip h', S.scan_skip h, ih]
  | emit s n hs h ih =>
      have h' : S.verdict (s ++ t) = .emit n := by
        rw [S.stable hs (by rw [h]; simp) t, h]
      have hn := (S.emit_bounds h).2
      rw [S.scan_emit (by simp [hs]) h', S.scan_emit hs h, List.take_append_of_le_length hn,
        List.drop_append_of_le_length hn, ih]
      simp

/-! ## Streams of frames and noise -/

/-- Symbols that are skipped whatever follows them leave no trace. -/
theorem scan_noise {noise : List β} (h : ∀ b ∈ noise, ∀ t, S.verdict (b :: t) = .skip)
    (s : List β) : S.scan (noise ++ s) = S.scan s := by
  induction noise with
  | nil => rfl
  | cons b noise ih =>
      rw [List.cons_append, S.scan_skip (h b (by simp) _)]
      exact ih fun b' hb' => h b' (by simp [hb'])

theorem scan_frame {f : List β} (hf : S.verdict f = .emit f.length) (s : List β) :
    S.scan (f ++ s) = (f :: (S.scan s).1, (S.scan s).2) := by
  have hne : f ≠ [] := by
    rintro rfl
    exact absurd (S.emit_bounds hf).1 (by simp)
  have h : S.verdict (f ++ s) = .emit f.length := by
    rw [S.stable hne (by rw [hf]; simp) s, hf]
  rw [S.scan_emit (by simp [hne]) h]
  simp

theorem scan_single {f : List β} (hf : S.verdict f = .emit f.length) : S.scan f = ([f], []) := by
  have h := S.scan_frame hf []
  rwa [List.append_nil, S.scan_nil] at h

/-- Frames with noise before, between and after them scan to the frames. -/
theorem scan_stream (pieces : List (List β × List β)) (last : List β)
    (hnoise : ∀ p ∈ pieces, ∀ b ∈ p.1, ∀ t, S.verdict (b :: t) = .skip)
    (hlast : ∀ b ∈ last, ∀ t, S.verdict (b :: t) = .skip)
    (hframe : ∀ p ∈ pieces, S.verdict p.2 = .emit p.2.length) :
    S.scan ((pieces.map fun p => p.1 ++ p.2).flatten ++ last) = (pieces.map Prod.snd, []) := by
  induction pieces with
  | nil =>
      have := S.scan_noise hlast []
      simpa using this
  | cons p pieces ih =>
      have hrest := ih (fun q hq => hnoise q (by simp [hq])) fun q hq => hframe q (by simp [hq])
      rw [List.map_cons, List.flatten_cons, List.append_assoc, List.append_assoc,
        S.scan_noise (hnoise p (by simp)), S.scan_frame (hframe p (by simp)), hrest]
      rfl

theorem scan_frames_emit (s : List β) : ∀ f ∈ (S.scan s).1, ∃ t, S.verdict (f ++ t) = .emit f.length := by
  induction s using S.scan_induction with
  | nil => simp
  | wait s _ h => simp [S.scan_wait h]
  | skip b s h ih => rw [S.scan_skip h]; exact ih
  | emit s n hs h ih =>
      rw [S.scan_emit hs h]
      intro f hf
      rcases List.mem_cons.mp hf with rfl | hf
      · refine ⟨s.drop n, ?_⟩
        rw [List.take_append_drop, h, List.length_take, Nat.min_eq_left (S.emit_bounds h).2]
      · exact ih f hf

/-! ## Streams that are joined in the middle -/

/-- When no frame is longer than `k + 1` and the scanner waits on `k` symbols at most, what stands before a
stream costs it no more than its first `k` symbols. -/
theorem scan_after {k : Nat} (hemit : ∀ s n, S.verdict s = .emit n → n ≤ k + 1)
    (hwait : ∀ s, S.verdict s = .wait → s.length ≤ k) (before s : List β) :
    ∃ early n, n ≤ k ∧ (S.scan (before ++ s)).1 = early ++ (S.scan (s.drop n)).1 ∧
      early.flatten.length ≤ before.length + n := by
  induction hl : before.length using Nat.strongRecOn generalizing before with
  | _ l ih =>
      cases before with
      | nil => exact ⟨[], 0, Nat.zero_le k, rfl, Nat.zero_le _⟩
      | cons b before =>
          cases hv : S.verdict (b :: before ++ s) with
          | wait =>
              have hle := hwait _ hv
              rw [List.length_append, List.length_cons] at hle
              refine ⟨[], s.length, by omega, ?_, Nat.zero_le _⟩
              rw [S.scan_wait hv, List.drop_length, S.scan_nil]
              rfl
          | skip =>
              obtain ⟨early, n, hn, hscan, hlen⟩ := ih before.length (by simp [← hl]) before rfl
              rw [List.cons_append] at hv
              refine ⟨early, n, hn, ?_, ?_⟩
              · rw [List.cons_append, S.scan_skip hv]
                exact hscan
              · rw [List.length_cons] at hl
                omega
          | emit m =>
              have hbounds := S.emit_bounds hv
              have hmax := hemit _ _ hv
              have hne : b :: before ++ s ≠ [] := List.cons_ne_nil _ _
              rw [S.scan_emit hne hv, List.drop_append]
              have htake : ((b :: before ++ s).take m).length = m :=
                List.length_take_of_le hbounds.2
              rcases Nat.le_total m l with hle | hge
              -- the frame ends before the stream begins
              · obtain ⟨early, n, hn, hscan, hlen⟩ :=
                  ih (l - m) (by omega) ((b :: before).drop m) (by simp only [List.length_drop, hl])
                have hrest : m - (b :: before).length = 0 := by omega
                refine ⟨(b :: before ++ s).take m :: early, n, hn, ?_, ?_⟩
                · rw [hrest, List.drop_zero, hscan]
                  rfl
                · rw [List.flatten_cons, List.length_append, htake]
                  omega
              -- it takes the first symbols of the stream with it
              · have hnil : (b :: before).drop m = [] := List.drop_of_length_le (by omega)
                refine ⟨[(b :: before ++ s).take m], m - (b :: before).length, ?_, ?_, ?_⟩
                · simp only [List.length_cons]
                  omega
                · rw [hnil]
                  rfl
                · rw [List.flatten_singleton, htake]
                  omega

/-- A scanner that comes into a stream of frames finds the next one that begins, when symbols of a frame behind
its first one are skipped. -/
theorem scan_drop_frames (frames : List (List β))
    (hframe : ∀ f ∈ frames, S.verdict f = .emit f.length)
    (hinside : ∀ f ∈ frames, ∀ b ∈ f.tail, ∀ t, S.verdict (b :: t) = .skip) (n : Nat) (t : List β) :
    ∃ j, (∀ i < j, (frames.take i).flatten.length < n) ∧
      (S.scan ((frames.flatten ++ t).drop n)).1 =
        frames.drop j ++ (S.scan (t.drop (n - frames.flatten.length))).1 := by
  induction frames generalizing n with
  | nil => exact ⟨0, nofun, rfl⟩
  | cons f frames ih =>
      obtain ⟨j, hj, hscan⟩ := ih (fun g hg => hframe g (List.mem_cons_of_mem _ hg))
        (fun g hg => hinside g (List.mem_cons_of_mem _ hg)) (n - f.length)
      rw [List.flatten_cons, List.append_assoc, List.drop_append, List.length_append, Nat.sub_add_eq]
      cases n with
      | zero =>
          have hzero : j = 0 := by
            by_contra hpos
            exact absurd (hj 0 (Nat.pos_of_ne_zero hpos)) (by simp)
          subst hzero
          simp only [Nat.zero_sub, List.drop_zero] at hscan ⊢
          refine ⟨0, nofun, ?_⟩
          rw [S.scan_frame (hframe f List.mem_cons_self), hscan]
          rfl
      | succ n =>
          have hnoise : ∀ b ∈ f.drop (n + 1), ∀ t, S.verdict (b :: t) = .skip := by
            intro b hb
            rw [← List.drop_tail] at hb
            exact hinside f List.mem_cons_self b (List.mem_of_mem_drop hb)
          refine ⟨j + 1, ?_, ?_⟩
          · intro i hi
            cases i with
            | zero => exact Nat.succ_pos n
            | succ i =>
                have hlt := hj i (Nat.lt_of_succ_lt_succ hi)
                rw [List.take_succ_cons, List.flatten_cons, List.length_append]
                omega
          · rw [S.scan_noise hnoise, hscan]
            rfl

/-- The scanner waits on a frame that is not all there. -/
theorem scan_part {u v : List β} (hframe : S.verdict (v ++ u) = .emit (v ++ u).length) (hu : u ≠ []) :
    S.scan v = ([], v) := by
  by_cases hv : v = []
  · subst hv
    exact S.scan_nil
  · apply S.scan_wait
    by_contra hnot
    have hstable := S.stable hv hnot u
    rw [hframe] at hstable
    have hle := (S.emit_bounds hstable.symm).2
    have hpos := List.length_pos_of_ne_nil hu
    rw [List.length_append] at hle
    omega

/-- Frames that are read half a frame late: if the later part and the earlier one make a frame too, the
scanner takes these, and never one of those that are there. -/
theorem scan_rotated {u v : List β} (hframe : S.verdict (v ++ u) = .emit (v ++ u).length) (hu : u ≠ [])
    (n : Nat) :
    S.scan (v ++ (List.replicate n (u ++ v)).flatten) = (List.replicate n (v ++ u), v) := by
  induction n with
  | zero =>
      rw [List.replicate_zero, List.flatten_nil, List.append_nil]
      exact S.scan_part hframe hu
  | succ n ih =>
      have hsplit : v ++ (List.replicate (n + 1) (u ++ v)).flatten =
          v ++ u ++ (v ++ (List.replicate n (u ++ v)).flatten) := by
        rw [List.replicate_succ, List.flatten_cons]
        simp only [List.append_assoc]
      rw [hsplit, S.scan_frame hframe, ih]
      rfl

/-! ## Streams of frames that have not arrived whole -/

theorem scan_frames {frames : List (List β)} (hframe : ∀ f ∈ frames, S.verdict f = .emit f.length) :
    S.scan frames.flatten = (frames, []) := by
  induction frames with
  | nil => exact S.scan_nil
  | cons f frames ih =>
      have hrest := ih fun g hg => hframe g (List.mem_cons_of_mem f hg)
      rw [List.flatten_cons, S.scan_frame (hframe f List.mem_cons_self), hrest]

/-- Of the frames in a stream the scanner takes those that have arrived whole, and waits on what has arrived
of the next one. -/
theorem scan_prefix {frames : List (List β)} (hframe : ∀ f ∈ frames, S.verdict f = .emit f.length)
    {s : List β} (hs : s <+: frames.flatten) :
    ∃ whole part, S.scan s = (whole, part) ∧ s = whole.flatten ++ part ∧ whole <+: frames ∧
      (part = [] ∨ ∃ f, whole ++ [f] <+: frames ∧ part <+: f ∧ part ≠ f) := by
  induction frames generalizing s with
  | nil =>
      obtain rfl : s = [] := List.prefix_nil.mp hs
      exact ⟨[], [], S.scan_nil, rfl, List.nil_prefix, .inl rfl⟩
  | cons f frames ih =>
      have hf := hframe f List.mem_cons_self
      rw [List.flatten_cons] at hs
      by_cases hwhole : f <+: s
      · obtain ⟨s, rfl⟩ := hwhole
        obtain ⟨whole, part, hscan, rfl, hstart, hpart⟩ :=
          ih (fun g hg => hframe g (List.mem_cons_of_mem f hg)) ((List.prefix_append_right_inj f).mp hs)
        refine ⟨f :: whole, part, ?_, ?_, List.cons_prefix_cons.mpr ⟨rfl, hstart⟩, ?_⟩
        · rw [S.scan_frame hf, hscan]
        · rw [List.flatten_cons, List.append_assoc]
        · rcases hpart with hnil | ⟨g, hnext, hgpart⟩
          · exact .inl hnil
          · exact .inr ⟨g, List.cons_prefix_cons.mpr ⟨rfl, hnext⟩, hgpart⟩
      · have hpart : s <+: f :=
          (List.prefix_or_prefix_of_prefix hs (List.prefix_append f _)).resolve_right hwhole
        obtain ⟨u, rfl⟩ := hpart
        have hu : u ≠ [] := by
          rintro rfl
          rw [List.append_nil] at hwhole
          exact hwhole List.prefix_rfl
        refine ⟨[], s, S.scan_part hf hu, rfl, List.nil_prefix, .inr ⟨s ++ u, ?_, List.prefix_append s u, ?_⟩⟩
        · exact List.cons_prefix_cons.mpr ⟨rfl, List.nil_prefix⟩
        · intro heq
          exact hu (List.append_right_eq_self.mp heq.symm)

end Scanner
