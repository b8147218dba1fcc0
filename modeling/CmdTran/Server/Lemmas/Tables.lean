import CmdTran.Server.Handlers

/-!
# Reading the tables

What is at a key of a table after each operation on it.
-/

namespace CmdTran

open Std (TreeMap)

variable {α ω : Type}

/-! ## Maps -/

theorem get_insert (m : TreeMap Nat α) (k a : Nat) (v : α) :
    (m.insert k v)[a]? = if k = a then some v else m[a]? := by
  simp [TreeMap.getElem?_insert]

theorem get_erase (m : TreeMap Nat α) (k a : Nat) :
    (m.erase k)[a]? = if k = a then none else m[a]? := by
  simp [TreeMap.getElem?_erase]

theorem get_insertIfNew (m : TreeMap Nat α) (k a : Nat) (v : α) :
    (m.insertIfNew k v)[a]? = if k = a then some (m[k]?.getD v) else m[a]? := by
  rw [TreeMap.getElem?_insertIfNew]
  simp only [compare_eq_iff_eq]
  by_cases h : k = a
  · subst h
    cases hm : m[k]? with
    | none => simp [TreeMap.mem_iff_isSome_getElem?, hm]
    | some v' => simp [TreeMap.mem_iff_isSome_getElem?, hm]
  · simp [h]

/-! ## The kernel -/

@[simp] theorem Kernel.fds_accept (k : Kernel) (fd n : Nat) :
    (k.accept fd).fds n = if n = fd then some k.accepted else k.fds n := by
  simp only [Kernel.accept, Function.update_apply]

@[simp] theorem Kernel.fds_close (k : Kernel) (fd n : Nat) :
    (k.close fd).fds n = if n = fd then none else k.fds n := by
  simp only [Kernel.close, Function.update_apply]

/-! ## The server -/

namespace Server

variable (s : Server ω) (env : World ω)

theorem get_addClient (sock k : Nat) (conn : Conn) :
    (s.addClient sock conn).clientMap[k]? =
      if sock = k then some (s.clientMap[sock]?.getD ⟨sock, -1, 0, Parser.new, 0, true, conn⟩)
      else s.clientMap[k]? :=
  get_insertIfNew _ _ _ _

theorem get_quitClient (sock k : Nat) :
    (s.quitClient sock).clientMap[k]? = if sock = k then none else s.clientMap[k]? :=
  get_erase _ _ _

theorem get_insertSocket (sock k : Nat) (conn : Conn) :
    (s.insertSocket sock conn).socketInfo[k]? =
      if sock = k then some (s.socketInfo[sock]?.getD (.new sock conn)) else s.socketInfo[k]? :=
  get_insertIfNew _ _ _ _

theorem get_removeSocket (sock k : Nat) :
    (s.removeSocket env sock).socketInfo[k]? =
      if sock = k then none else s.socketInfo[k]? := by
  unfold removeSocket
  split
  · rename_i hnone
    by_cases h : sock = k
    · subst h
      rw [if_pos rfl, hnone]
    · rw [if_neg h]
  · exact get_erase _ _ _

@[simp] theorem removeSocket_kernel (sock : Nat) :
    (s.removeSocket env sock).kernel = s.kernel := by
  unfold removeSocket
  split <;> rfl

@[simp] theorem removeSocket_clientMap (sock : Nat) :
    (s.removeSocket env sock).clientMap = s.clientMap := by
  unfold removeSocket
  split <;> rfl

@[simp] theorem removeSocket_log (sock : Nat) : (s.removeSocket env sock).log = s.log := by
  unfold removeSocket
  split <;> rfl

@[simp] theorem removeSocket_frameTasks (sock : Nat) :
    (s.removeSocket env sock).frameTasks = s.frameTasks := by
  unfold removeSocket
  split <;> rfl

@[simp] theorem quitClient_kernel (sock : Nat) : (s.quitClient sock).kernel = s.kernel := rfl

@[simp] theorem close_clientMap (fd : Nat) : (s.close fd).clientMap = s.clientMap := rfl

@[simp] theorem close_kernel (fd : Nat) : (s.close fd).kernel = s.kernel.close fd := rfl

end Server

end CmdTran
