import CmdTran.Parser.Grammar
import CmdTran.Server.Lemmas.Handlers

/-!
# Routing

`CRecvDataProc` on its own: what a frame makes of the client table, and the calls of `SendData` that
it leads to. The server carries these calls out (`Server.commandProc_eq`).
-/

namespace CmdTran

open Server (byteAt cameraIdAt isViewer clientTypePhone clientTypePC loginAckFrame BadType)

abbrev ClientMap := Std.TreeMap Nat ClientInfo

/-- A call of `SendData` and the `len` bytes that it reads of its buffer. -/
structure SendDataCall where
  sock : Nat
  bytes : List UInt8
  len : Int
  backfun : Bool
  deriving DecidableEq

def SendDataCall.of (sock : Nat) (buffer : List UInt8) (len : Int) (backfun : Bool) : SendDataCall :=
  ⟨sock, buffer.take len.toNat, len, backfun⟩

/-- What a frame leaves behind: the table, the calls of `SendData`, and whether the socket of the
frame is closed. -/
structure FrameOutcome where
  clients : ClientMap
  calls : List SendDataCall
  closes : Bool

/-! ## The commands -/

namespace CRecvDataProc

def addClient (clients : ClientMap) (sock : Nat) (conn : Conn) : ClientMap :=
  clients.insertIfNew sock ⟨sock, -1, 0, Parser.new, 0, true, conn⟩

def quitClient (clients : ClientMap) (sock : Nat) : ClientMap := clients.erase sock

def newClient (clients : ClientMap) (sock : Nat) (frame : Block) :
    Option (ClientMap × List SendDataCall) :=
  if byteAt frame 4 = clientTypePhone ∨ byteAt frame 4 = clientTypePC then
    (clients[sock]?).map fun client =>
      (clients.insert sock { client with
        clientType := (byteAt frame 4).toNat
        cameraId := cameraIdAt frame 5 }, [.of sock loginAckFrame 5 false])
  else none

def resetCameraId (clients : ClientMap) (sock : Nat) (frame : Block) : ClientMap :=
  match clients[sock]? with
  | none => clients
  | some client => clients.insert sock { client with cameraId := cameraIdAt frame 4 }

def picDataRecv (clients : ClientMap) (sock : Nat) (frame : Block) (frameLen : Int) :
    List SendDataCall :=
  match clients[sock]? with
  | none => []
  | some phone =>
      (clients.toList.filter fun entry => isViewer sock phone.cameraId entry.1 entry.2).map
        fun entry => .of entry.1 frame.toList frameLen true

def commandProc (clients : ClientMap) (sock : Nat) (frame : Block) (frameLen : Int) : FrameOutcome :=
  if byteAt frame 3 = 0x00 then
    match newClient clients sock frame with
    | some (clients, calls) => ⟨clients, calls, false⟩
    | none => ⟨quitClient clients sock, [], true⟩
  else if byteAt frame 3 = 0x01 then ⟨resetCameraId clients sock frame, [], false⟩
  else if byteAt frame 3 = 0x10 then ⟨clients, picDataRecv clients sock frame frameLen, false⟩
  else ⟨clients, [], false⟩

end CRecvDataProc

/-! ## Each kind of frame -/

namespace CRecvDataProc

variable {clients : ClientMap} {sock : Nat} {frame : Block}

theorem commandProc_rejected (hcode : byteAt frame 3 = 0x00)
    (h : BadType frame ∨ clients[sock]? = none) (frameLen : Int) :
    commandProc clients sock frame frameLen = ⟨quitClient clients sock, [], true⟩ := by
  have hnew : newClient clients sock frame = none := by
    unfold newClient
    split
    · rename_i htype
      rw [h.resolve_left (not_not.mpr htype), Option.map_none]
    · rfl
  rw [commandProc, if_pos hcode, hnew]

theorem commandProc_login (hcode : byteAt frame 3 = 0x00) (htype : ¬BadType frame)
    {client : ClientInfo} (hclient : clients[sock]? = some client) (frameLen : Int) :
    commandProc clients sock frame frameLen =
      ⟨clients.insert sock { client with
        clientType := (byteAt frame 4).toNat
        cameraId := cameraIdAt frame 5 }, [.of sock loginAckFrame 5 false], false⟩ := by
  rw [commandProc, if_pos hcode, newClient, if_pos (not_not.mp htype), hclient]
  rfl

theorem commandProc_reset (hcode : byteAt frame 3 = 0x01) (frameLen : Int) :
    commandProc clients sock frame frameLen = ⟨resetCameraId clients sock frame, [], false⟩ := by
  rw [commandProc, if_neg (by simp [hcode]), if_pos hcode]

theorem commandProc_picture (hcode : byteAt frame 3 = 0x10) (frameLen : Int) :
    commandProc clients sock frame frameLen =
      ⟨clients, picDataRecv clients sock frame frameLen, false⟩ := by
  rw [commandProc, if_neg (by simp [hcode]), if_neg (by simp [hcode]), if_pos hcode]

theorem commandProc_unknown (h0 : byteAt frame 3 ≠ 0x00) (h1 : byteAt frame 3 ≠ 0x01)
    (h2 : byteAt frame 3 ≠ 0x10) (frameLen : Int) :
    commandProc clients sock frame frameLen = ⟨clients, [], false⟩ := by
  rw [commandProc, if_neg h0, if_neg h1, if_neg h2]

/-- A frame changes the table at its own socket only. -/
theorem commandProc_other (clients : ClientMap) (frame : Block) (frameLen : Int) {t : Nat}
    (h : t ≠ sock) : (commandProc clients sock frame frameLen).clients[t]? = clients[t]? := by
  have hinsert : ∀ client, (clients.insert sock client)[t]? = clients[t]? := fun client =>
    (get_insert clients sock t client).trans (if_neg h.symm)
  by_cases h0 : byteAt frame 3 = 0x00
  · by_cases hrej : BadType frame ∨ clients[sock]? = none
    · rw [commandProc_rejected h0 hrej]
      exact (get_erase clients sock t).trans (if_neg h.symm)
    · obtain ⟨htype, hsome⟩ := not_or.mp hrej
      obtain ⟨client, hclient⟩ := Option.ne_none_iff_exists'.mp hsome
      rw [commandProc_login h0 htype hclient]
      exact hinsert _
  · by_cases h1 : byteAt frame 3 = 0x01
    · rw [commandProc_reset h1]
      unfold resetCameraId
      cases clients[sock]? with
      | none => rfl
      | some client => exact hinsert _
    · by_cases h2 : byteAt frame 3 = 0x10
      · rw [commandProc_picture h2]
      · rw [commandProc_unknown h0 h1 h2]

end CRecvDataProc

/-! ## The server does the same -/

namespace Server

variable {ω : Type} (env : World ω)

/-- One call after another. A picture is known by its call-back. -/
def sendCalls (s : Server ω) (source : Option Conn) (calls : List SendDataCall) : Server ω :=
  calls.foldl (fun s c =>
    (s.sendData env c.sock c.bytes c.len c.backfun (if c.backfun then source else none)).1) s

theorem sendData_take (s : Server ω) (sock : Nat) (buffer : List UInt8) (len : Int) (backfun : Bool)
    (source : Option Conn) :
    s.sendData env sock (buffer.take len.toNat) len backfun source =
      s.sendData env sock buffer len backfun source := by
  simp only [sendData, List.take_take, min_self]

theorem sendCalls_ack (s : Server ω) (sock : Nat) (source : Option Conn) :
    s.sendCalls env source [.of sock loginAckFrame 5 false] =
      (s.sendData env sock loginAckFrame 5 false none).1 := by
  simp only [sendCalls, List.foldl_cons, List.foldl_nil, SendDataCall.of, sendData_take,
    Bool.false_eq_true, if_false]

theorem sendCalls_picDataRecv (s : Server ω) (sock : Nat) (frame : Block) (frameLen : Int)
    (source : Option Conn) :
    s.sendCalls env source (CRecvDataProc.picDataRecv s.clientMap sock frame frameLen) =
      s.picDataRecv env sock frame frameLen source := by
  unfold CRecvDataProc.picDataRecv picDataRecv
  cases s.clientMap[sock]? with
  | none => rfl
  | some phone =>
      simp only [sendCalls, List.foldl_map, List.foldl_filter, SendDataCall.of, sendData_take, if_true]

/-- `CommandProc` of the server is that of the table, with its calls carried out. -/
theorem commandProc_eq (s : Server ω) (sock : Nat) (frame : Block) (frameLen : Int)
    (source : Option Conn) :
    s.commandProc env sock frame frameLen source =
      let outcome := CRecvDataProc.commandProc s.clientMap sock frame frameLen
      let s' := ({ s with clientMap := outcome.clients }).sendCalls env source outcome.calls
      if outcome.closes then s'.close sock else s' := by
  by_cases h0 : byteAt frame 3 = 0x00
  · by_cases hrej : BadType frame ∨ s.clientMap[sock]? = none
    · rw [commandProc_rejected ⟨h0, hrej⟩, CRecvDataProc.commandProc_rejected h0 hrej]
      rfl
    · obtain ⟨htype, hsome⟩ := not_or.mp hrej
      obtain ⟨client, hclient⟩ := Option.ne_none_iff_exists'.mp hsome
      rw [CRecvDataProc.commandProc_login h0 htype hclient, commandProc, if_pos h0, newClient,
        if_pos (not_not.mp htype), hclient]
      exact (sendCalls_ack env _ sock source).symm
  · by_cases h1 : byteAt frame 3 = 0x01
    · rw [CRecvDataProc.commandProc_reset h1, commandProc, if_neg h0, if_pos h1, resetCameraId,
        CRecvDataProc.resetCameraId]
      cases s.clientMap[sock]? with
      | none => rfl
      | some client => rfl
    · by_cases h2 : byteAt frame 3 = 0x10
      · rw [CRecvDataProc.commandProc_picture h2, commandProc, if_neg h0, if_neg h1, if_pos h2]
        exact (sendCalls_picDataRecv env s sock frame frameLen source).symm
      · rw [CRecvDataProc.commandProc_unknown h0 h1 h2, commandProc, if_neg h0, if_neg h1, if_neg h2]
        rfl

theorem addClient_eq (s : Server ω) (sock : Nat) (conn : Conn) :
    (s.addClient sock conn).clientMap = CRecvDataProc.addClient s.clientMap sock conn := rfl

theorem quitClient_eq (s : Server ω) (sock : Nat) :
    (s.quitClient sock).clientMap = CRecvDataProc.quitClient s.clientMap sock := rfl

end Server

end CmdTran
