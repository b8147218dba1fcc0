import CmdTran.Interest.Basic

/-!
# Flags, switch and mask

The three agree after every call exactly when each call of the run keeps them together.
-/

namespace CmdTran

open Server

variable {ω : Type} {env : World ω}

/-! ## `epoll_ctl` -/

section Kernel

variable {s : Server ω}

/-- What `epoll_ctl` does to an open descriptor. -/
structure Modified (env : World ω) (s : Server ω) (sock : Nat) (enable : Bool) (s' : Server ω) :
    Prop where
  world : s'.world = (env.epollCtlMod s.world).2
  socketInfo : s'.socketInfo = s.socketInfo
  fds : s'.kernel.fds = s.kernel.fds
  same : ∀ k, k ≠ sock → s'.kernel.readable k = s.kernel.readable k
  mask : s'.kernel.readable sock =
    if (env.epollCtlMod s.world).1 then enable else s.kernel.readable sock

theorem modified_epollCtlMod {sock : Nat} (hopen : s.kernel.fds sock ≠ none) (enable : Bool) :
    Modified env s sock enable (s.epollCtlMod env sock enable).1 := by
  obtain ⟨conn, hconn⟩ := Option.ne_none_iff_exists'.mp hopen
  unfold epollCtlMod
  split
  · rename_i hnone
    exact absurd hnone hopen
  · rename_i world hfail
    refine ⟨?_, rfl, rfl, fun _ _ => rfl, ?_⟩
    · rw [hfail]
    · rw [hfail]
      rfl
  · rename_i world hok
    refine ⟨?_, rfl, rfl, fun k hk => Function.update_of_ne hk _ _, ?_⟩
    · rw [hok]
    · rw [hok]
      exact Function.update_self sock enable s.kernel.readable

/-- What the loop over all sockets does to open descriptors. -/
structure EachModified (env : World ω) (s : Server ω) (entries : List (Nat × Socket))
    (enable : Bool) (s' : Server ω) : Prop where
  socketInfo : s'.socketInfo = s.socketInfo
  fds : s'.kernel.fds = s.kernel.fds
  same : ∀ k, (∀ entry ∈ entries, entry.1 ≠ k) → s'.kernel.readable k = s.kernel.readable k
  mask : ∀ p ∈ entries.zip (nextAnswers env entries.length s.world),
    s'.kernel.readable p.1.1 = if p.2 then enable else s.kernel.readable p.1.1

theorem eachModified_modifyEach {entries : List (Nat × Socket)} (enable : Bool)
    (hknown : ∀ entry ∈ entries, entry.2.sockId = entry.1 ∧ s.kernel.fds entry.1 ≠ none)
    (hkeys : entries.Pairwise fun a b => a.1 ≠ b.1) :
    EachModified env s entries enable (CEpollServer.modifyEach env enable entries s).1 := by
  induction entries generalizing s with
  | nil => exact ⟨rfl, rfl, fun _ _ => rfl, fun p hp => by cases hp⟩
  | cons entry rest ih =>
      obtain ⟨hid, hopen⟩ := hknown entry List.mem_cons_self
      obtain ⟨hother, hrest⟩ := List.pairwise_cons.mp hkeys
      have hmod : Modified env s entry.1 enable (s.epollCtlMod env entry.2.sockId enable).1 := by
        rw [hid]
        exact modified_epollCtlMod hopen enable
      have hknown' : ∀ e ∈ rest, e.2.sockId = e.1 ∧
          (s.epollCtlMod env entry.2.sockId enable).1.kernel.fds e.1 ≠ none := by
        rw [hmod.fds]
        exact fun e he => hknown e (List.mem_cons_of_mem entry he)
      have hall := ih hknown' hrest
      refine ⟨hall.socketInfo.trans hmod.socketInfo, hall.fds.trans hmod.fds, ?_, ?_⟩
      · intro k hk
        exact (hall.same k fun e he => hk e (List.mem_cons_of_mem entry he)).trans
          (hmod.same k (hk entry List.mem_cons_self).symm)
      · intro p hp
        rw [List.length_cons, nextAnswers, List.zip_cons_cons, List.mem_cons] at hp
        rcases hp with rfl | hp
        · exact (hall.same entry.1 fun e he => (hother e he).symm).trans hmod.mask
        · have hin := (List.of_mem_zip hp).1
          rw [← hmod.world] at hp
          rw [← hmod.same p.1.1 (hother p.1 hin).symm]
          exact hall.mask p hp

end Kernel

/-! ## Registered sockets -/

namespace CEpollServer

variable {s : CEpollServer ω}

/-- A registered socket is open, and its entry has its number. -/
def Known (s : CEpollServer ω) : Prop :=
  ∀ (sock : Nat) (info : Socket), s.socketInfo[sock]? = some info →
    info.sockId = sock ∧ s.kernel.fds sock ≠ none

theorem interestAgrees_iff : s.InterestAgrees ↔
    ∀ (sock : Nat) (info : Socket), s.socketInfo[sock]? = some info →
      s.kernel.readable sock = (info.enableRead && s.enableReading) := by
  simp only [InterestAgrees, ← Bool.and_eq_true, ← Bool.eq_iff_iff]

theorem length_nextAnswers (n : Nat) (w : ω) : (nextAnswers env n w).length = n := by
  induction n generalizing w with
  | zero => rfl
  | succ n ih => exact congrArg Nat.succ (ih _)

/-- Every registered socket gets an answer, and only registered ones do. -/
theorem mem_answers (env : World ω) {sock : Nat} {info : Socket} :
    (∃ ok, ((sock, info), ok) ∈ answers env s.toServer) ↔ s.socketInfo[sock]? = some info := by
  have hfst : (answers env s.toServer).map Prod.fst = s.socketInfo.toList :=
    List.map_fst_zip (Nat.le_of_eq (length_nextAnswers _ _).symm)
  rw [← Std.TreeMap.mem_toList_iff_getElem?_eq_some, ← hfst, List.mem_map]
  constructor
  · rintro ⟨ok, hin⟩
    exact ⟨_, hin, rfl⟩
  · rintro ⟨⟨entry, ok⟩, hin, rfl⟩
    exact ⟨ok, hin⟩

/-! ## One socket -/

section ModifyRead

variable {sock : Nat} {enable : Bool}

/-- Either the flag changes, and after it is written the kernel is told, or nothing happens. -/
theorem modifyRead_cases (env : World ω) (hknown : s.Known) (sock : Nat) (enable : Bool) :
    (∃ info, s.socketInfo[sock]? = some info ∧ info.enableRead = !enable ∧
      Modified env { s.toServer with
        socketInfo := s.socketInfo.insert sock { info with enableRead := enable } } sock enable
        (s.toServer.modifyRead env sock enable).1) ∨
      (∀ info, s.socketInfo[sock]? = some info → info.enableRead = enable) ∧
        (s.toServer.modifyRead env sock enable).1 = s.toServer := by
  unfold modifyRead
  cases hinfo : s.socketInfo[sock]? with
  | none =>
      right
      refine ⟨?_, rfl⟩
      intro info hsome
      cases hsome
  | some info =>
      by_cases hflag : enable = info.enableRead
      · right
        refine ⟨?_, congrArg Prod.fst (if_pos hflag)⟩
        rintro _ ⟨⟩
        exact hflag.symm
      · left
        refine ⟨info, rfl, Bool.eq_not_of_ne (Ne.symm hflag), ?_⟩
        dsimp only
        rw [if_neg hflag]
        apply modified_epollCtlMod
        exact (hknown sock info hinfo).2

/-- With the flag the other way before, the mask is right after the change. -/
theorem interestAgrees_modifyRead (hknown : s.Known) (h : s.InterestAgrees) :
    ({ s with toServer := (s.toServer.modifyRead env sock enable).1 } : CEpollServer ω).InterestAgrees ↔
      ∀ info, s.socketInfo[sock]? = some info → info.enableRead = !enable →
        (if (env.epollCtlMod s.world).1 then enable else (!enable && s.enableReading)) =
          (enable && s.enableReading) := by
  rw [interestAgrees_iff] at h
  rw [interestAgrees_iff]
  rcases modifyRead_cases env hknown sock enable with ⟨info, hinfo, hnot, hmod⟩ | ⟨hsame, heq⟩
  · have hmask : (s.toServer.modifyRead env sock enable).1.kernel.readable sock =
        if (env.epollCtlMod s.world).1 then enable else (!enable && s.enableReading) := by
      rw [hmod.mask, ← hnot, ← h sock info hinfo]
    constructor
    · intro hafter info' hinfo' _
      rw [← hmask]
      apply hafter sock { info with enableRead := enable }
      rw [hmod.socketInfo, get_insert, if_pos rfl]
    · intro hok sock' info' hinfo'
      rw [hmod.socketInfo, get_insert] at hinfo'
      split at hinfo'
      · rename_i hsock
        cases hinfo'
        rw [← hsock, hmask]
        exact hok info hinfo hnot
      · rename_i hsock
        rw [hmod.same sock' (Ne.symm hsock)]
        exact h sock' info' hinfo'
  · rw [heq]
    refine iff_of_true h ?_
    intro info hinfo hnot
    rw [hsame info hinfo] at hnot
    cases enable <;> cases hnot

end ModifyRead

/-! ## All sockets -/

theorem eachModified (env : World ω) (hknown : s.Known) (enable : Bool) :
    EachModified env s.toServer s.socketInfo.toList enable
      (modifyEach env enable s.socketInfo.toList s.toServer).1 := by
  apply eachModified_modifyEach
  · rintro ⟨sock, info⟩ hin
    exact hknown sock info (Std.TreeMap.mem_toList_iff_getElem?_eq_some.mp hin)
  · exact s.socketInfo.distinct_keys_toList.imp fun hne heq => hne (compare_eq_iff_eq.mpr heq)

/-- With the switch the other way before, the masks are right after the change. -/
theorem interestAgrees_modifyAll (hknown : s.Known) (h : s.InterestAgrees) (enable : Bool) :
    (s.modifyAll env enable).1.InterestAgrees ↔
      (s.enableReading = !enable → ∀ p ∈ answers env s.toServer,
        (if p.2 then enable else (p.1.2.enableRead && !enable)) = (p.1.2.enableRead && enable)) := by
  unfold modifyAll
  split
  · rename_i hsame
    refine iff_of_true h ?_
    intro hnot
    rw [hsame] at hnot
    cases enable <;> cases hnot
  · rename_i hne
    have hnot : s.enableReading = !enable := Bool.eq_not_of_ne hne
    have hmod := eachModified env hknown enable
    rw [interestAgrees_iff] at h
    rw [interestAgrees_iff]
    have hmask : ∀ p ∈ answers env s.toServer,
        (modifyEach env enable s.socketInfo.toList s.toServer).1.kernel.readable p.1.1 =
          if p.2 then enable else (p.1.2.enableRead && !enable) := by
      rintro ⟨⟨sock, info⟩, ok⟩ hp
      rw [hmod.mask _ hp, ← hnot, ← h sock info ((mem_answers env).mp ⟨ok, hp⟩)]
    constructor
    · rintro hafter _ ⟨⟨sock, info⟩, ok⟩ hp
      rw [← hmask _ hp]
      apply hafter sock info
      rw [hmod.socketInfo]
      exact (mem_answers env).mp ⟨ok, hp⟩
    · intro hok sock info hinfo
      rw [hmod.socketInfo] at hinfo
      obtain ⟨ok, hp⟩ := (mem_answers env).mpr hinfo
      rw [hmask _ hp]
      exact hok hnot _ hp

/-! ## Accept and the end of a stream -/

theorem interestAgrees_eof (h : s.InterestAgrees) (fd : Nat) :
    ({ s with toServer := s.toServer.eof env fd } : CEpollServer ω).InterestAgrees := by
  intro sock info hinfo
  have hget := get_removeSocket ((s.toServer.close fd).quitClient fd) env fd sock
  rw [eof, hget] at hinfo
  split at hinfo
  · cases hinfo
  · have hold := h sock info hinfo
    rw [InterestAgrees] at h
    rw [eof, removeSocket_kernel]
    exact hold

theorem interestAgrees_accept (hknown : s.Known) (h : s.InterestAgrees) {fd : Nat}
    (hfree : s.kernel.fds fd = none) :
    ({ s with toServer := s.toServer.acceptClient (some fd) true } : CEpollServer ω).InterestAgrees ↔
      s.enableReading = true := by
  have hget : ∀ sock : Nat, (s.toServer.acceptClient (some fd) true).socketInfo[sock]? =
      if fd = sock then some (s.socketInfo[fd]?.getD (.new fd s.kernel.accepted))
      else s.socketInfo[sock]? := fun sock => get_insertIfNew _ _ _ _
  have hnew : s.socketInfo[fd]? = none := by
    cases hinfo : s.socketInfo[fd]? with
    | none => rfl
    | some info => exact absurd hfree (hknown fd info hinfo).2
  rw [hnew] at hget
  have hon : (s.toServer.acceptClient (some fd) true).kernel.readable fd = true := by
    show Function.update s.kernel.readable fd true fd = true
    exact Function.update_self fd true s.kernel.readable
  constructor
  · intro hafter
    exact ((hafter fd _ ((hget fd).trans (if_pos rfl))).mp hon).2
  · intro hswitch sock info hinfo
    rw [hget] at hinfo
    split at hinfo
    · rename_i hsock
      cases hinfo
      rw [← hsock]
      exact iff_of_true hon ⟨rfl, hswitch⟩
    · rename_i hsock
      have hold := h sock info hinfo
      have hkept : (s.toServer.acceptClient (some fd) true).kernel.readable sock =
          s.kernel.readable sock := Function.update_of_ne (Ne.symm hsock) _ _
      dsimp only
      rw [hkept]
      exact hold

theorem interestAgrees_refused (hknown : s.Known) (h : s.InterestAgrees) {fd : Nat}
    (hfree : s.kernel.fds fd = none) :
    ({ s with toServer := s.toServer.acceptClient (some fd) false } : CEpollServer ω).InterestAgrees := by
  intro sock info hinfo
  have hne : sock ≠ fd := by
    rintro rfl
    exact (hknown sock info hinfo).2 hfree
  have hkept : (s.toServer.acceptClient (some fd) false).kernel.readable sock =
      s.kernel.readable sock := Function.update_of_ne hne _ _
  dsimp only
  rw [hkept]
  exact h sock info hinfo

/-! ## Open and numbered -/

theorem Known.quiet (h : s.Known) {s' : CEpollServer ω} (hfds : s'.kernel.fds = s.kernel.fds)
    (hsock : ∀ (sock : Nat) (info' : Socket), s'.socketInfo[sock]? = some info' →
      ∃ info, s.socketInfo[sock]? = some info ∧ info'.sockId = info.sockId) : s'.Known := by
  intro sock info' hinfo'
  obtain ⟨info, hinfo, hid⟩ := hsock sock info' hinfo'
  rw [hid, hfds]
  exact h sock info hinfo

theorem Known.modifyRead (h : s.Known) (sock : Nat) (enable : Bool) :
    ({ s with toServer := (s.toServer.modifyRead env sock enable).1 } : CEpollServer ω).Known := by
  rcases modifyRead_cases env h sock enable with ⟨info, hinfo, _, hmod⟩ | ⟨_, heq⟩
  · apply h.quiet hmod.fds
    intro sock' info' hinfo'
    rw [hmod.socketInfo, get_insert] at hinfo'
    split at hinfo'
    · rename_i hsock
      cases hinfo'
      rw [← hsock]
      exact ⟨info, hinfo, rfl⟩
    · exact ⟨info', hinfo', rfl⟩
  · rw [heq]
    exact h

theorem Known.modifyAll (h : s.Known) (enable : Bool) : (s.modifyAll env enable).1.Known := by
  have hmod := eachModified env h enable
  unfold CEpollServer.modifyAll
  split
  · exact h
  · apply h.quiet hmod.fds
    rw [hmod.socketInfo]
    exact fun sock info hinfo => ⟨info, hinfo, rfl⟩

theorem Known.eof (h : s.Known) (fd : Nat) :
    ({ s with toServer := s.toServer.eof env fd } : CEpollServer ω).Known := by
  intro sock info hinfo
  have hget := get_removeSocket ((s.toServer.close fd).quitClient fd) env fd sock
  rw [Server.eof, hget] at hinfo
  split at hinfo
  · cases hinfo
  · rename_i hne
    rw [Server.eof, removeSocket_kernel, quitClient_kernel, close_kernel, Kernel.fds_close,
      if_neg (Ne.symm hne)]
    exact h sock info hinfo

theorem Known.accept (h : s.Known) {fd : Nat} (hfree : s.kernel.fds fd = none) (added : Bool) :
    ({ s with toServer := s.toServer.acceptClient (some fd) added } : CEpollServer ω).Known := by
  have hother : ∀ {sock : Nat} {info : Socket}, s.socketInfo[sock]? = some info → sock ≠ fd := by
    rintro sock info hinfo rfl
    exact (h sock info hinfo).2 hfree
  intro sock info hinfo
  cases added with
  | false =>
      have hfds : (s.toServer.acceptClient (some fd) false).kernel.fds sock = s.kernel.fds sock := by
        show ((s.kernel.accept fd).close fd).fds sock = s.kernel.fds sock
        rw [Kernel.fds_close, if_neg (hother hinfo), Kernel.fds_accept, if_neg (hother hinfo)]
      rw [hfds]
      exact h sock info hinfo
  | true =>
      have hfds : (s.toServer.acceptClient (some fd) true).kernel.fds sock =
          if sock = fd then some s.kernel.accepted else s.kernel.fds sock := Kernel.fds_accept _ _ _
      have hget : (s.toServer.acceptClient (some fd) true).socketInfo[sock]? =
          if fd = sock then some (s.socketInfo[fd]?.getD (.new fd s.kernel.accepted))
          else s.socketInfo[sock]? := get_insertIfNew _ _ _ _
      rw [hfds]
      rw [hget] at hinfo
      split at hinfo
      · rename_i hsock
        have hnew : s.socketInfo[fd]? = none := by
          cases hold : s.socketInfo[fd]? with
          | none => rfl
          | some info => exact absurd rfl (hother hold)
        rw [hnew] at hinfo
        cases hinfo
        rw [if_pos hsock.symm]
        exact ⟨hsock, Option.some_ne_none _⟩
      · rw [if_neg (hother hinfo)]
        exact h sock info hinfo

end CEpollServer

/-! ## Every run -/

open CEpollServer

theorem known_step {s s' : CEpollServer ω} {a : ReadCall} (h : s.Known)
    (hs : a.step env s = some s') : s'.Known := by
  cases a with
  | accept connfd added =>
      simp only [ReadCall.step] at hs
      split at hs
      · rename_i hfree
        cases hs
        cases connfd with
        | none => exact h
        | some fd => exact h.accept (by simpa using hfree) added
      · cases hs
  | eof fd =>
      simp only [ReadCall.step] at hs
      split at hs
      · cases hs
        exact h.eof fd
      · cases hs
  | enableRead sock =>
      cases hs
      exact h.modifyRead sock true
  | disableRead sock =>
      cases hs
      exact h.modifyRead sock false
  | enableReadAll =>
      cases hs
      exact h.modifyAll true
  | disableReadAll =>
      cases hs
      exact h.modifyAll false

/-- A call leaves the three in agreement exactly when it keeps them together. -/
theorem keepsInterest_iff {s s' : CEpollServer ω} {a : ReadCall} (hknown : s.Known)
    (h : s.InterestAgrees) (hs : a.step env s = some s') :
    KeepsInterest env s a ↔ s'.InterestAgrees := by
  cases a with
  | accept connfd added =>
      simp only [ReadCall.step] at hs
      split at hs
      · rename_i hfree
        cases hs
        cases connfd with
        | none => exact iff_of_true (fun hsome => by cases hsome) h
        | some fd =>
            have hfd : s.kernel.fds fd = none := by simpa using hfree
            cases added with
            | false =>
                have hvacuous : KeepsInterest env s (.accept (some fd) false) := by
                  intro _ hadded
                  cases hadded
                exact iff_of_true hvacuous (interestAgrees_refused hknown h hfd)
            | true =>
                rw [interestAgrees_accept hknown h hfd]
                exact ⟨fun hok => hok rfl rfl, fun hon _ _ => hon⟩
      · cases hs
  | eof fd =>
      simp only [ReadCall.step] at hs
      split at hs
      · cases hs
        exact iff_of_true trivial (interestAgrees_eof h fd)
      · cases hs
  | enableRead sock =>
      cases hs
      rw [show s.toServer.enableRead env sock = s.toServer.modifyRead env sock true from rfl,
        interestAgrees_modifyRead hknown h]
      simp only [KeepsInterest, Bool.not_true, Bool.false_and, Bool.true_and]
      cases (env.epollCtlMod s.world).1 <;> simp
  | disableRead sock =>
      cases hs
      rw [show s.toServer.disableRead env sock = s.toServer.modifyRead env sock false from rfl,
        interestAgrees_modifyRead hknown h]
      simp only [KeepsInterest, Bool.not_false, Bool.false_and, Bool.true_and]
      cases (env.epollCtlMod s.world).1 <;> simp
  | enableReadAll =>
      cases hs
      rw [enableReadAll, interestAgrees_modifyAll hknown h]
      simp [KeepsInterest]
  | disableReadAll =>
      cases hs
      rw [disableReadAll, interestAgrees_modifyAll hknown h]
      simp [KeepsInterest]

theorem known_start (w : ω) : (CEpollServer.start w).Known := by
  intro sock info hinfo
  cases (Std.TreeMap.getElem?_emptyc (a := sock)).symm.trans hinfo

theorem interestAgrees_start (w : ω) : (CEpollServer.start w).InterestAgrees := by
  intro sock info hinfo
  cases (Std.TreeMap.getElem?_emptyc (a := sock)).symm.trans hinfo

/-- Flags, switch and masks agree after every call of a run exactly when every call of it keeps them
together. -/
theorem interestAgrees_iff_meets (env : World ω) (w : ω) {calls : List ReadCall}
    {s : CEpollServer ω} (hrun : (readCalls env w).run (readCalls env w).start calls = some s) :
    (∀ done s', done <+: calls → (readCalls env w).run (readCalls env w).start done = some s' →
      s'.InterestAgrees) ↔
      (readCalls env w).Meets (KeepsInterest env) (readCalls env w).start calls := by
  have hstart : (readCalls env w).start.Known ∧ (readCalls env w).start.InterestAgrees :=
    ⟨known_start w, interestAgrees_start w⟩
  have hstep : ∀ s a s', s.Known ∧ s.InterestAgrees → (readCalls env w).step s a = some s' →
      (KeepsInterest env s a ↔ s'.Known ∧ s'.InterestAgrees) := by
    intro s a s' hs hstep
    rw [keepsInterest_iff hs.1 hs.2 hstep]
    exact (and_iff_right (known_step hs.1 hstep)).symm
  rw [← (readCalls env w).meets_iff_invariant hstep hstart hrun]
  constructor
  · intro h done s' hdone hs'
    refine ⟨?_, h done s' hdone hs'⟩
    exact (readCalls env w).run_invariant (fun _ _ _ hk hs => known_step hk hs) (known_start w) hs'
  · exact fun h done s' hdone hs' => (h done s' hdone hs').2

/-- A socket is accepted, paused by flow control and resumed. -/
theorem interestAgrees_iff_meets_resume :
    ∃ s, (readCalls plentiful ()).run (readCalls plentiful ()).start
        [.accept (some 5) true, .disableRead 5, .enableRead 5] = some s ∧
      ((∀ done s', done <+: [.accept (some 5) true, .disableRead 5, .enableRead 5] →
          (readCalls plentiful ()).run (readCalls plentiful ()).start done = some s' →
          s'.InterestAgrees) ↔
        (readCalls plentiful ()).Meets (KeepsInterest plentiful) (readCalls plentiful ()).start
          [.accept (some 5) true, .disableRead 5, .enableRead 5]) := by
  have hrun : ((readCalls plentiful ()).run (readCalls plentiful ()).start
      [.accept (some 5) true, .disableRead 5, .enableRead 5]).isSome = true := by
    decide +kernel
  obtain ⟨s, hs⟩ := Option.isSome_iff_exists.mp hrun
  exact ⟨s, hs, interestAgrees_iff_meets plentiful () hs⟩

/-- A socket is paused, then reading goes off and on again for all: the socket is read although its
flag is off. -/
def pauseCalls : List ReadCall :=
  [.accept (some 5) true, .disableRead 5, .disableReadAll, .enableReadAll]

theorem not_interestAgrees_pause :
    ∃ s, (readCalls plentiful ()).run (readCalls plentiful ()).start pauseCalls = some s ∧
      ¬s.InterestAgrees := by
  have hrun : ((readCalls plentiful ()).run (readCalls plentiful ()).start pauseCalls).any
      (fun s => s.kernel.readable 5 &&
        (s.socketInfo[5]?).any fun info => !info.enableRead) = true := by
    decide +kernel
  obtain ⟨s, hs, hfacts⟩ := (Option.any_eq_true _ _).mp hrun
  obtain ⟨hmask, hflag⟩ := Bool.and_eq_true_iff.mp hfacts
  obtain ⟨info, hinfo, hoff⟩ := (Option.any_eq_true _ _).mp hflag
  refine ⟨s, hs, ?_⟩
  intro hagrees
  rw [((hagrees 5 info hinfo).mp hmask).1] at hoff
  cases hoff

end CmdTran
