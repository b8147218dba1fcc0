import CmdTran.Relay.Theorems
import CmdTran.Parser.Resync

/-!
# What a connection receives

A client that reads with the parser of the server gets the frames that were queued for it back, however much
of them `send` has taken and however they arrive.
-/

namespace CmdTran

open Server Relay

variable {ω π : Type} {getBuff : π → Option Block × π}

/-! ## The parser on what has been sent -/

theorem frames_emit {frames : List (List UInt8)} (h : ∀ f ∈ frames, WellFormed f) :
    ∀ f ∈ frames, frameScanner.verdict f = .emit f.length :=
  fun f hf => frameVerdict_of_wellFormed (h f hf)

/-- Of the bytes the parser has got the frames up to one that has not arrived whole, and keeps the start of
that one. -/
structure GotBack (frames : List (List UInt8)) (bytes : List UInt8) (got : List (List UInt8))
    (pending : List UInt8) : Prop where
  bytes : bytes = got.flatten ++ pending
  whole : got <+: frames
  part : pending = [] ∨ ∃ f, got ++ [f] <+: frames ∧ pending <+: f ∧ pending ≠ f

theorem Parser.gotBack (hpool : ∀ p, (getBuff p).1 ≠ none) (pool : π) {frames : List (List UInt8)}
    (hframes : ∀ f ∈ frames, WellFormed f) {buffs : List ReadBuff}
    (hstart : received buffs <+: frames.flatten) :
    GotBack frames (received buffs) ((new.callAll getBuff pool buffs).2.map taskFrame)
      (new.callAll getBuff pool buffs).1.state.pending := by
  obtain ⟨hgot, hpending⟩ := callAll_new hpool pool buffs
  obtain ⟨whole, part, hscan, hbytes, hwhole, hpart⟩ :=
    frameScanner.scan_prefix (frames_emit hframes) hstart
  rw [hgot, hpending, framesOf, restOf, hscan]
  exact ⟨hbytes, hwhole, hpart⟩

theorem Parser.gotAll (hpool : ∀ p, (getBuff p).1 ≠ none) (pool : π) {frames : List (List UInt8)}
    (hframes : ∀ f ∈ frames, WellFormed f) {buffs : List ReadBuff} (hall : received buffs = frames.flatten) :
    (new.callAll getBuff pool buffs).2.map taskFrame = frames := by
  rw [(callAll_new hpool pool buffs).1, hall, framesOf, frameScanner.scan_frames (frames_emit hframes)]

/-! ## Every run -/

/-- In every run in which no descriptor is reused too early, nothing is read from a connection that has no
client yet and no client is removed while `RestructFrame` works in it: what has been sent to a connection is read
back as the first frames that were queued for it and the start of the next one, and as all of them when there is no
output left. Wherever an iterator goes from an erased entry, this holds. -/
theorem gotBack_of_readsClients (env : World ω) (listenSocket : Nat) (w : ω) {steps : List RelayStep}
    {s : Relay ω}
    (hmeets : (relays env listenSocket w).Meets
      (fun s a => s.KeepsNumbers listenSocket a ∧ s.ReadsClients a ∧ s.KeepsParsers a) (Relay.start w) steps)
    (hrun : (relays env listenSocket w).run (Relay.start w) steps = some s) (conn : Conn)
    (hpool : ∀ p, (getBuff p).1 ≠ none) (pool : π) {buffs : List ReadBuff}
    (hcut : Parser.received buffs = sent s.server.log conn) :
    GotBack (queued s.server.log conn) (sent s.server.log conn)
        ((Parser.new.callAll getBuff pool buffs).2.map taskFrame)
        (Parser.new.callAll getBuff pool buffs).1.state.pending ∧
      ∀ fd, s.server.kernel.fds fd = some conn → s.server.chain fd = [] →
        (Parser.new.callAll getBuff pool buffs).2.map taskFrame = queued s.server.log conn := by
  have hstep : ∀ (s : Relay ω) (a : RelayStep) (s' : Relay ω), s.view.Inv →
      s.KeepsNumbers listenSocket a ∧ s.ReadsClients a ∧ s.KeepsParsers a →
      (relays env listenSocket w).step s a = some s' → s'.view.Inv := by
    rintro s a s' h ⟨hnumbers, hreads, hparsers⟩ hs
    have hmoves : Moves False s.view s'.view :=
      moves_of_step h hnumbers hreads hparsers False.elim hs
    exact h.moves hmoves
  have hinv : s.view.Inv := hmeets.invariant _ hstep (inv_start w) hrun
  have hform := hinv.chained.form conn
  constructor
  · have hstart : sent s.server.log conn <+: (queued s.server.log conn).flatten :=
      hinv.chained.sent conn
    rw [← hcut] at hstart ⊢
    exact Parser.gotBack hpool pool hform hstart
  · intro fd hfd hchain
    apply Parser.gotAll hpool pool hform
    have hall := hinv.chained.chain fd conn hfd
    have hnone : s.view.chain fd = [] := hchain
    rw [hnone, List.flatMap_nil, List.append_nil] at hall
    exact hcut.trans hall

/-- The acknowledgement and three bytes of the picture. -/
def twoPieces : List ReadBuff := [⟨[0x7E, 0], by decide⟩, ⟨[5, 0x90, 0xA5, 0x7E, 0, 5], by decide⟩]

theorem gotBack_of_readsClients_twoPieces :
    ∃ s, (relays plentiful 3 ()).run (Relay.start ()) (pictureSteps ++ [.send 1 (.took 3)]) = some s ∧
      GotBack (queued s.server.log 0) (sent s.server.log 0)
        ((Parser.new.callAll cleanPool () twoPieces).2.map taskFrame)
        (Parser.new.callAll cleanPool () twoPieces).1.state.pending := by
  have hmeets : (relays plentiful 3 ()).Meets
      (fun s a => s.KeepsNumbers 3 a ∧ s.ReadsClients a ∧ s.KeepsParsers a) (Relay.start ())
      (pictureSteps ++ [.send 1 (.took 3)]) := by
    decide +kernel
  have hsent : ((relays plentiful 3 ()).run (Relay.start ()) (pictureSteps ++ [.send 1 (.took 3)])).map
      (fun s => sent s.server.log 0) = some [0x7E, 0, 5, 0x90, 0xA5, 0x7E, 0, 5] := by
    decide +kernel
  obtain ⟨s, hrun, hs⟩ := Option.map_eq_some_iff.mp hsent
  have hcut : Parser.received twoPieces = sent s.server.log 0 := hs.symm
  exact ⟨s, hrun,
    (gotBack_of_readsClients plentiful 3 () hmeets hrun 0 (fun _ => Option.some_ne_none _) () hcut).1⟩

end CmdTran
