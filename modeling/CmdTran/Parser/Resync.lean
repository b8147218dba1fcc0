import CmdTran.Parser.Bounded

/-!
# Frames behind garbage

What a parser makes of a stream that it joins in the middle, or that other bytes came before. Bytes that
look like the start of a frame cost the frames behind them at most as much as the longest frame has; but a
parser that reads frames half a frame late may never find out.
-/

namespace CmdTran

variable {π : Type} {getBuff : π → Option Block × π}

/-! ## One call for each read -/

namespace Parser

/-- The parser after the reads of a connection, and what was queued. -/
def callAll (getBuff : π → Option Block × π) :
    Parser → π → List ReadBuff → Parser × List (Block × Int)
  | p, _, [] => (p, [])
  | p, pool, buff :: buffs =>
      let r := p.call getBuff pool buff
      let r' := callAll getBuff (p.next getBuff pool buff) r.pool buffs
      (r'.1, r.queued ++ r'.2)

/-- The bytes of the reads, one after another. -/
def received (buffs : List ReadBuff) : List UInt8 := (buffs.map ReadBuff.bytes).flatten

theorem next_settled (p : Parser) (pool : π) (buff : ReadBuff) :
    Settled (p.next getBuff pool buff).state :=
  (p.call_spec getBuff pool buff).2.settled

theorem callAll_spec (hpool : ∀ p, (getBuff p).1 ≠ none) {p : Parser} (hp : Settled p.state)
    (pool : π) (buffs : List ReadBuff) :
    (p.callAll getBuff pool buffs).2.map taskFrame = framesOf (p.state.pending ++ received buffs) ∧
      (p.callAll getBuff pool buffs).1.state.pending = restOf (p.state.pending ++ received buffs) := by
  induction buffs generalizing p pool with
  | nil => simp [callAll, received, framesOf, restOf, hp.scan_pending]
  | cons buff buffs ih =>
      obtain ⟨_, hscan⟩ := p.call_spec getBuff pool buff
      have hpending : (p.next getBuff pool buff).state.pending = restOf (p.state.pending ++ buff.bytes) :=
        hscan.pending
      obtain ⟨hframes, hrest⟩ :=
        ih (p.next_settled pool buff) (p.call getBuff pool buff).pool
      have hreceived : p.state.pending ++ received (buff :: buffs) =
          p.state.pending ++ buff.bytes ++ received buffs := by
        rw [received, List.map_cons, List.flatten_cons, List.append_assoc, received]
      rw [hpending] at hframes hrest
      rw [hreceived, framesOf_append, restOf_append (p.state.pending ++ buff.bytes)]
      refine ⟨?_, hrest⟩
      rw [callAll, List.map_append, hscan.frames hpool, hframes]

theorem callAll_new (hpool : ∀ p, (getBuff p).1 ≠ none) (pool : π) (buffs : List ReadBuff) :
    (new.callAll getBuff pool buffs).2.map taskFrame = framesOf (received buffs) ∧
      (new.callAll getBuff pool buffs).1.state.pending = restOf (received buffs) :=
  callAll_spec hpool (Settled.of_exitLen_eq_zero rfl) pool buffs

end Parser

/-! ## The scan of such a stream -/

/-- A frame with no head behind its first byte. -/
structure Headless (f : List UInt8) : Prop where
  wellFormed : WellFormed f
  inside : frameHead ∉ f.tail

instance (f : List UInt8) : Decidable (WellFormed f) :=
  decidable_of_iff (f.head? = some frameHead ∧ frameLenMin ≤ f.length ∧ f.length ≤ frameLenMax ∧
      headerLen f = f.length ∧ f.getLast? = some frameEnd)
    ⟨fun ⟨head, len_min, len_max, len, tail⟩ => ⟨head, len_min, len_max, len, tail⟩,
      fun h => ⟨h.head, h.len_min, h.len_max, h.len, h.tail⟩⟩

theorem emit_le {s : List UInt8} {n : Nat} (h : frameVerdict s = .emit n) : n ≤ 1123 + 1 := by
  have hbounds := frameVerdict_emit h
  simp only [frameLenMax] at hbounds
  omega

theorem wait_le {s : List UInt8} (h : frameVerdict s = .wait) : s.length ≤ 1123 := by
  have hle := length_of_wait h
  simp only [frameLenMax] at hle
  omega

/-- The frames behind anything, from the first one on that begins behind the longest frame that may have begun
before, and then those of what follows; `k` bytes of that are lost too if the frames are all swallowed. -/
theorem framesOf_after (before : List UInt8) {frames : List (List UInt8)}
    (hframes : ∀ f ∈ frames, Headless f) (rest : List UInt8) :
    ∃ early j k,
      framesOf (before ++ (frames.flatten ++ rest)) = early ++ frames.drop j ++ framesOf (rest.drop k) ∧
      (∀ i < j, ((frames.take i).flatten.length : Int) < frameLenMax - 1) ∧
      (early.flatten.length : Int) ≤ before.length + (frameLenMax - 1) ∧
      (k = 0 ∨ frames.drop j = [] ∧ (frames.flatten.length : Int) + k ≤ frameLenMax - 1) := by
  obtain ⟨early, n, hn, hscan, hearly⟩ := frameScanner.scan_after (k := 1123) (fun _ _ => emit_le)
    (fun _ => wait_le) before (frames.flatten ++ rest)
  obtain ⟨j, hj, hdrop⟩ := frameScanner.scan_drop_frames frames
    (fun f hf => frameVerdict_of_wellFormed (hframes f hf).wellFormed)
    (by
      intro f hf b hb t
      have hne : b ≠ frameHead := fun heq => (hframes f hf).inside (heq ▸ hb)
      exact if_pos hne) n rest
  refine ⟨early, j, n - frames.flatten.length, ?_, ?_, ?_, ?_⟩
  · rw [framesOf, hscan, hdrop, List.append_assoc, framesOf]
  · intro i hi
    have hlt := hj i hi
    simp only [frameLenMax]
    omega
  · simp only [frameLenMax]
    omega
  · by_cases hle : n ≤ frames.flatten.length
    · exact Or.inl (Nat.sub_eq_zero_of_le hle)
    · -- the frame that swallowed them ends in `rest`
      rw [List.drop_append, List.drop_eq_nil_of_le (by omega), List.nil_append] at hdrop
      refine Or.inr ⟨List.self_eq_append_left.mp hdrop, ?_⟩
      simp only [frameLenMax]
      omega

/-! ## The parser of a connection -/

namespace Parser

/-- Whatever a connection sends first, and however its stream is cut: every frame without a head inside
that begins at least 1123 bytes later is queued, whole and in order, and behind them what a new parser would
queue of the rest. -/
theorem queued_after (hpool : ∀ p, (getBuff p).1 ≠ none) (pool : π) (before : List UInt8)
    {frames : List (List UInt8)} (hframes : ∀ f ∈ frames, Headless f) (rest : List UInt8)
    {buffs : List ReadBuff} (hcut : received buffs = before ++ (frames.flatten ++ rest)) :
    ∃ early j k, (new.callAll getBuff pool buffs).2.map taskFrame =
        early ++ frames.drop j ++ framesOf (rest.drop k) ∧
      (∀ i < j, ((frames.take i).flatten.length : Int) < frameLenMax - 1) ∧
      (early.flatten.length : Int) ≤ before.length + (frameLenMax - 1) ∧
      (k = 0 ∨ frames.drop j = [] ∧ (frames.flatten.length : Int) + k ≤ frameLenMax - 1) := by
  rw [(callAll_new hpool pool buffs).1, hcut]
  exact framesOf_after before hframes rest

/-- A head with a length that goes over the first frame and a byte of the second one, and a frame that
follows them. -/
theorem queued_after_two : ∃ early j k,
    (new.callAll cleanPool () [⟨[0x7E, 0, 9], by decide⟩, ⟨[0x7E, 0, 5, 1, 0xA5, 0x7E, 0, 5], by decide⟩,
      ⟨[1, 0xA5, 0x7E, 0, 5, 2, 0xA5], by decide⟩]).2.map taskFrame =
        early ++ [[0x7E, 0, 5, 1, 0xA5], [0x7E, 0, 5, 1, 0xA5]].drop j ++
          framesOf (List.drop k [0x7E, 0, 5, 2, 0xA5]) ∧
      (∀ i < j, ((([[0x7E, 0, 5, 1, 0xA5], [0x7E, 0, 5, 1, 0xA5]] : List (List UInt8)).take i).flatten.length :
        Int) < frameLenMax - 1) ∧
      (early.flatten.length : Int) ≤ [(0x7E : UInt8), 0, 9].length + (frameLenMax - 1) ∧
      (k = 0 ∨ ([[0x7E, 0, 5, 1, 0xA5], [0x7E, 0, 5, 1, 0xA5]] : List (List UInt8)).drop j = [] ∧
        (([[0x7E, 0, 5, 1, 0xA5], [0x7E, 0, 5, 1, 0xA5]] : List (List UInt8)).flatten.length : Int) + k ≤
          frameLenMax - 1) :=
  queued_after (fun _ => Option.some_ne_none _) () [0x7E, 0, 9]
    (by
      intro f hf
      obtain rfl : f = [0x7E, 0, 5, 1, 0xA5] := by simpa using hf
      exact ⟨by decide, by decide⟩)
    [0x7E, 0, 5, 2, 0xA5] rfl

/-- A client that sends the same frame over and over again, to a parser that has got its later part first: if
the two parts make a frame in that order too, the parser queues these, and never the one that is
sent. -/
theorem queued_rotated (hpool : ∀ p, (getBuff p).1 ≠ none) (pool : π) {u v : List UInt8}
    (hframe : WellFormed (v ++ u)) (hu : u ≠ []) (n : Nat) {buffs : List ReadBuff}
    (hcut : received buffs = v ++ (List.replicate n (u ++ v)).flatten) :
    (new.callAll getBuff pool buffs).2.map taskFrame = List.replicate n (v ++ u) ∧
      (new.callAll getBuff pool buffs).1.state.pending = v := by
  have hscan := frameScanner.scan_rotated (frameVerdict_of_wellFormed hframe) hu n
  obtain ⟨hframes, hrest⟩ := callAll_new hpool pool buffs
  rw [hframes, hrest, hcut, framesOf, restOf, hscan]
  exact ⟨rfl, rfl⟩

/-- Frames with a head in the middle; the first half of the first one is lost. -/
theorem queued_rotated_twice :
    (new.callAll cleanPool () [⟨[0x7E, 0, 10, 2, 0xA5], by decide⟩,
      ⟨[0x7E, 0, 10, 1, 0xA5, 0x7E, 0, 10, 2, 0xA5, 0x7E, 0, 10, 1, 0xA5, 0x7E, 0, 10, 2, 0xA5],
        by decide⟩]).2.map taskFrame =
        List.replicate 2 ([0x7E, 0, 10, 2, 0xA5] ++ [0x7E, 0, 10, 1, 0xA5]) ∧
      (new.callAll cleanPool () [⟨[0x7E, 0, 10, 2, 0xA5], by decide⟩,
        ⟨[0x7E, 0, 10, 1, 0xA5, 0x7E, 0, 10, 2, 0xA5, 0x7E, 0, 10, 1, 0xA5, 0x7E, 0, 10, 2, 0xA5],
          by decide⟩]).1.state.pending = [0x7E, 0, 10, 2, 0xA5] :=
  queued_rotated (fun _ => Option.some_ne_none _) () (by decide) (by decide) 2 rfl

end Parser

end CmdTran
