import CmdTran.Relay.Lemmas.Steps
import CmdTran.Relay.Lemmas.Order

/-!
# What is relayed

In every run that keeps to the guards, what is queued for a connection is complete frames, what the
kernel takes is a prefix of it, and the pictures of a phone come in the order in which it sent them.
-/

namespace CmdTran

open Server Relay

variable {ω : Type} {env : World ω} {listenSocket : Nat}

/-! ## The invariant -/

theorem pending_start (w : ω) (fd : Nat) : (Relay.start w).view.pending fd = none := by
  simp [view, Relay.start, Server.start, Server.pending]

theorem inv_start (w : ω) : (Relay.start w).view.Inv where
  numbered := ⟨nofun, fun _ _ => ⟨rfl, rfl, rfl⟩⟩
  sorted := ⟨nofun, nofun⟩
  framed := ⟨nofun, nofun, nofun, nofun⟩
  staged := ⟨nofun, nofun, nofun, nofun⟩
  chained := ⟨nofun, fun _ => List.nil_prefix, nofun⟩

theorem View.Inv.moves {v v' : View} {inOrder : Prop} (h : v.Inv) (hmoves : Moves inOrder v v') :
    v'.Inv := by
  induction hmoves with
  | refl => exact h
  | tail _ hmove ih => exact ih.move hmove

/-- What holds as long as the iterators are at entries. -/
structure View.InOrder (v : View) : Prop where
  inv : v.Inv
  placed : Placed v
  parsed : Parsed v
  ordered : Ordered v

theorem inOrder_start (w : ω) : (Relay.start w).view.InOrder where
  inv := inv_start w
  placed := nofun
  parsed := by
    refine ⟨?_, ?_⟩
    · intro fd c p hp
      cases (pending_start w fd).symm.trans hp
    · intro fd p hp
      cases (pending_start w fd).symm.trans hp
  ordered := ⟨nofun, fun _ _ _ _ => List.nil_sublist _⟩

theorem View.InOrder.moves {v v' : View} (h : v.InOrder) (hmoves : Moves True v v') : v'.InOrder := by
  induction hmoves with
  | refl => exact h
  | tail _ hmove ih =>
      exact
        { inv := ih.inv.move hmove
          placed := ih.placed.move hmove
          parsed := ih.parsed.move ih.inv.numbered ih.inv.staged hmove
          ordered :=
            ih.ordered.move ih.inv.numbered ih.inv.sorted ih.inv.framed ih.parsed hmove }

/-! ## Transparency -/

theorem transparent_of_inv {s : Relay ω} (h : s.view.InOrder) (phone conn : Conn) :
    s.Transparent phone conn := by
  refine ⟨h.inv.chained.form conn, h.inv.chained.sent conn, ?_⟩
  have horder := h.ordered.order phone conn (s.number conn) fun _ => rfl
  have hsub := (List.sublist_append_left _ _).trans horder
  have hpictures := List.filter_eq_self.mpr (h.ordered.pictures phone conn)
  exact hpictures ▸ hsub.filter isPicture

/-- In every run in which no descriptor is reused too early, nothing is read from a connection that has no
client yet, and no client is removed while `RestructFrame` works in it or an iterator is at its entry, the
relay is transparent in every state. -/
theorem transparent_of_keepsEntries (env : World ω) (listenSocket : Nat) (w : ω)
    {steps : List RelayStep} {s : Relay ω}
    (hmeets : (relays env listenSocket w).Meets
      (fun s a => s.KeepsNumbers listenSocket a ∧ s.ReadsClients a ∧ s.KeepsParsers a ∧ s.KeepsEntries a)
      (Relay.start w) steps)
    (hrun : (relays env listenSocket w).run (Relay.start w) steps = some s) (phone conn : Conn) :
    s.Transparent phone conn := by
  have hstep : ∀ (s : Relay ω) (a : RelayStep) (s' : Relay ω), s.view.InOrder →
      s.KeepsNumbers listenSocket a ∧ s.ReadsClients a ∧ s.KeepsParsers a ∧ s.KeepsEntries a →
      (relays env listenSocket w).step s a = some s' → s'.view.InOrder := by
    rintro s a s' h ⟨hnumbers, hreads, hparsers, hentries⟩ hs
    exact h.moves (moves_of_step h.inv hnumbers hreads hparsers (fun _ => ⟨hentries, h.placed⟩) hs)
  have hinv : s.view.InOrder := hmeets.invariant _ hstep (inOrder_start w) hrun
  exact transparent_of_inv hinv phone conn

/-! ## A run -/

def goOn (w : Fin 4) : RelayStep := .recv w none true .failed

/-- The server listens on 3, and the recv worker of 3 has accepted a connection at `fd`. -/
def acceptAt (fd : Nat) : List RelayStep :=
  [.deliver ⟨3, true, false⟩, .recv 3 (some fd) true .failed]

def addSteps : List RelayStep := [goOn 3, goOn 3, goOn 3]

def readStep (w : Fin 4) (bytes : List UInt8) (h : bytes.length ≤ readBuffLen) : RelayStep :=
  .recv w none true (.data ⟨bytes, h⟩)

def loginFrame (clientType : UInt8) : List UInt8 := [0x7E, 0, 8, 0, clientType, 0, 0, 0xA5]

/-- A client at `fd` says who it is. -/
def connectAt (fd : Nat) (clientType : UInt8) : List RelayStep :=
  acceptAt fd ++ addSteps ++ [.deliver ⟨fd, true, false⟩, goOn (workerOf fd),
    readStep (workerOf fd) (loginFrame clientType) (show 8 ≤ readBuffLen by decide)] ++
    List.replicate 4 (goOn (workerOf fd)) ++ List.replicate 4 (.frame (workerOf fd))

def pcSteps : List RelayStep := connectAt 5 1

/-- A phone at 6 says who it is and sends a picture. -/
def pictureSteps : List RelayStep :=
  pcSteps ++ acceptAt 6 ++ addSteps ++ [.deliver ⟨6, true, false⟩, goOn 2,
    readStep 2 [0x7E, 0, 8, 0, 0, 0, 0, 0xA5, 0x7E, 0, 5, 0x10, 0xA5] (by decide)] ++
    List.replicate 4 (goOn 2) ++ List.replicate 14 (.frame 2) ++ [.send 1 (.took 10), .send 1 (.took 10)]

theorem transparent_of_keepsEntries_picture :
    ∃ s, (relays plentiful 3 ()).run (Relay.start ()) pictureSteps = some s ∧
      relayed s.server.log 1 0 = [[0x7E, 0, 5, 0x10, 0xA5]] ∧ s.Transparent 1 0 := by
  have hmeets : (relays plentiful 3 ()).Meets
      (fun s a => s.KeepsNumbers 3 a ∧ s.ReadsClients a ∧ s.KeepsParsers a ∧ s.KeepsEntries a)
      (Relay.start ()) pictureSteps := by
    decide +kernel
  have hrelayed : ((relays plentiful 3 ()).run (Relay.start ()) pictureSteps).map
      (fun s => relayed s.server.log 1 0) = some [[0x7E, 0, 5, 0x10, 0xA5]] := by
    decide +kernel
  obtain ⟨s, hrun, hs⟩ := Option.map_eq_some_iff.mp hrelayed
  exact ⟨s, hrun, hs, transparent_of_keepsEntries plentiful 3 () hmeets hrun 1 0⟩

/-! ## A read before `AddClient` -/

def phonePicture : List UInt8 :=
  [0x7E, 0, 0x12, 0x10, 0x7E, 0, 8, 0, 0, 0, 0, 0xA5, 0x7E, 0, 5, 0x10, 0xA5, 0xA5]

/-- The first bytes of the phone are read between `EPOLL_CTL_ADD` and `AddClient`. -/
def earlySteps : List RelayStep :=
  pcSteps ++ acceptAt 6 ++ [goOn 3, .deliver ⟨6, true, false⟩, goOn 2,
    readStep 2 (phonePicture.take 4) (by decide), goOn 3, goOn 3,
    readStep 2 (phonePicture.drop 4) (by decide)] ++ List.replicate 2 (goOn 2) ++
    List.replicate 14 (.frame 2)

theorem not_transparent_early :
    ∃ s, (relays plentiful 3 ()).run (Relay.start ()) earlySteps = some s ∧
      (relays plentiful 3 ()).Meets (fun s a => s.KeepsNumbers 3 a) (Relay.start ()) earlySteps ∧
      ¬s.Transparent 1 0 := by
  have hmeets : (relays plentiful 3 ()).Meets
      (fun s a => s.KeepsNumbers 3 a) (Relay.start ()) earlySteps := by
    decide +kernel
  have hlog : ((relays plentiful 3 ()).run (Relay.start ()) earlySteps).map
      (fun s => (relayed s.server.log 1 0, received s.server.log 1)) =
        some ([[0x7E, 0, 5, 0x10, 0xA5]], phonePicture) := by
    decide +kernel
  obtain ⟨s, hrun, hs⟩ := Option.map_eq_some_iff.mp hlog
  obtain ⟨hrelayed, hreceived⟩ := Prod.mk.inj hs
  refine ⟨s, hrun, hmeets, ?_⟩
  rintro ⟨_, _, hsub⟩
  have hframes : framesOf phonePicture = [phonePicture] :=
    congrArg Prod.fst (frameScanner.scan_single (f := phonePicture) (by decide))
  rw [hrelayed, hreceived, hframes] at hsub
  exact absurd hsub (by decide)

/-! ## An entry that is erased -/

/-- Two PCs, at 5 and 6, and a phone at 8 with a picture. The iterator is at 6 when 6 quits, and comes from the
erased entry to 5 again. -/
def erasedSteps : List RelayStep :=
  connectAt 5 1 ++ connectAt 6 1 ++ connectAt 8 0 ++ [.deliver ⟨8, true, false⟩, goOn 0,
    readStep 0 [0x7E, 0, 5, 0x10, 0xA5] (by decide)] ++ List.replicate 3 (goOn 0) ++
    List.replicate 7 (.frame 0) ++ [.deliver ⟨6, false, false⟩, goOn 2, goOn 2,
      .frameAstray 0 ⟨0, false, 0, some 5⟩, .frame 0]

/-- Everything is read after `AddClient`, and the PC at 5 gets the picture twice. -/
theorem not_transparent_erased :
    ∃ s, (relays plentiful 3 ()).run (Relay.start ()) erasedSteps = some s ∧
      (relays plentiful 3 ()).Meets
        (fun s a => s.KeepsNumbers 3 a ∧ s.ReadsClients a ∧ s.KeepsParsers a) (Relay.start ()) erasedSteps ∧
      ¬s.Transparent 2 0 := by
  have hmeets : (relays plentiful 3 ()).Meets
      (fun s a => s.KeepsNumbers 3 a ∧ s.ReadsClients a ∧ s.KeepsParsers a) (Relay.start ())
      erasedSteps := by
    decide +kernel
  have hlog : ((relays plentiful 3 ()).run (Relay.start ()) erasedSteps).map
      (fun s => (relayed s.server.log 2 0, received s.server.log 2)) =
        some ([[0x7E, 0, 5, 0x10, 0xA5], [0x7E, 0, 5, 0x10, 0xA5]],
          [loginFrame 0, [0x7E, 0, 5, 0x10, 0xA5]].flatten) := by
    decide +kernel
  obtain ⟨s, hrun, hs⟩ := Option.map_eq_some_iff.mp hlog
  obtain ⟨hrelayed, hreceived⟩ := Prod.mk.inj hs
  refine ⟨s, hrun, hmeets, ?_⟩
  rintro ⟨_, _, hsub⟩
  have hframes : framesOf [loginFrame 0, [0x7E, 0, 5, 0x10, 0xA5]].flatten =
      [loginFrame 0, [0x7E, 0, 5, 0x10, 0xA5]] :=
    congrArg Prod.fst (frameScanner.scan_frames (by decide))
  rw [hrelayed, hreceived, hframes] at hsub
  exact absurd hsub (by decide)

end CmdTran
