import CeriosCluster.ClientGateway.System
import CeriosCluster.Lib.Slots

/-!
# Who owns which client

The abstract machine of the gateway's two owners. A slot is a key of `pendingClients`, a key of `clients`
or the accept handler's local pointer, and holds a client or nothing. Of a client only what the owners
look at is kept. The operations are those of the two owners on the slots, with the sends, the buffers and
the requests left out.
-/

namespace CeriosCluster.ClientGateway

open CeriosCluster.Lib CeriosCluster.MCPacket

/-- What the owners see of a client; `logins` counts the calls of `onPlayerLogin`. -/
structure Holder where
  freed : Bool
  owner : OwnerRef
  socket : Socket
  alive : Bool
  state : ClientState
  userid : Bytes
  waitsPending : Nat
  compressionThreshold : Word
  logins : Nat
  deriving DecidableEq

def Client.holder (c : Client) : Holder :=
  ⟨c.freed, c.owner, c.socket, c.alive, c.state, c.userid, c.waitsPending, c.compressionThreshold,
    c.log.count .onPlayerLogin⟩

inductive Slot
  | pending (handle : Word)
  | client (userid : Bytes)
  | accepting
  deriving DecidableEq

/-- The clients, and what each slot holds; an entry that is null holds nothing. -/
structure Custody where
  holders : List Holder
  held : Slot → Option ConnId

def Gateway.held (g : Gateway) : Slot → Option ConnId
  | .pending handle => (g.pendingClients.lookup handle).getD none
  | .client userid => (g.clients.lookup userid).getD none
  | .accepting => g.accepting

def Gateway.custody (g : Gateway) : Custody := ⟨g.objects.map Client.holder, g.held⟩

/-- The socket after `cancel`, `shutdown` and `close`, of which each runs only if the ones before did not
throw. -/
def Socket.shut (s : Socket) : Socket := if s.state = .connected then { s with state := .closed } else s

namespace Custody

/-! ## The operations -/

def modify (o : Custody) (i : ConnId) (f : Holder → Holder) : Custody := { o with holders := o.holders.modify i f }

def free (o : Custody) : Option ConnId → Custody
  | none => o
  | some i => o.modify i fun c => { c with freed := true }

def write (o : Custody) (s : Slot) (p : Option ConnId) : Custody := { o with held := Function.update o.held s p }

/-- Another pointer is assigned to a slot, which frees what it held. -/
def replace (o : Custody) (s : Slot) (p : Option ConnId) : Custody := (o.write s p).free (o.held s)

def construct (o : Custody) (socket : Socket) : Custody where
  holders := o.holders ++ [(Client.new .login socket zeroToken).holder]
  held := Function.update o.held .accepting (some o.holders.length)

def insert (o : Custody) (i : ConnId) : Custody :=
  match o.holders[i]? with
  | none => o
  | some c => (o.write .accepting none).replace (.pending c.socket.native_handle) (some i)

def disconnect (o : Custody) (i : ConnId) : Custody :=
  match o.holders[i]? with
  | none => o
  | some c =>
    if c.alive then
      let o := o.modify i fun c => { c with alive := false, socket := c.socket.shut }
      match c.owner with
      | .login => o
      | .clientServer => o.replace (.client c.userid) none
    else o

/-- `ClientServer` takes the client `j`, which no slot holds. -/
def adopt (o : Custody) (j : ConnId) (userid : Bytes) : Custody :=
  (o.modify j fun c => { c with owner := .clientServer }).replace (.client userid) (some j)

/-- `Login` looks a client up under its native handle and hands over what it finds. -/
def handoff (o : Custody) (handle : Word) : Custody :=
  match o.held (.pending handle) with
  | none => o
  | some j =>
    match o.holders[j]? with
    | none => o
    | some c => ((o.write (.pending handle) none).replace (.pending c.socket.native_handle) none).adopt j c.userid

/-- A login whose `LoginSuccessPacket` could be sent. -/
def login (o : Custody) (i : ConnId) : Custody :=
  match o.holders[i]? with
  | none => o
  | some c =>
    let o := o.modify i fun c => { c with state := .PLAY, waitsPending := c.waitsPending + 1, logins := c.logins + 1 }
    match c.owner with
    | .login => o.handoff c.socket.native_handle
    | .clientServer => o

end Custody

/-- One operation on the slots or on what the owners see of a client. -/
inductive CustodyOp
  | construct (socket : Socket)
  | insert (i : ConnId)
  | reset (i : ConnId)
  | expire (i : ConnId)
  | arm (i : ConnId)
  | handshake (i : ConnId) (requestedNextState : ClientState)
  | rename (i : ConnId) (userid : Bytes)
  | login (i : ConnId)
  | failLogin (i : ConnId)
  | disconnect (i : ConnId)

def Custody.apply (o : Custody) : CustodyOp → Custody
  | .construct socket => o.construct socket
  | .insert i => o.insert i
  | .reset i => o.modify i fun c => { c with socket := { c.socket with state := .reset } }
  | .expire i => o.modify i fun c => { c with waitsPending := c.waitsPending - 1 }
  | .arm i => o.modify i fun c => { c with waitsPending := c.waitsPending + 1 }
  | .handshake i n => o.modify i fun c => { c with state := n }
  | .rename i userid => o.modify i fun c => { c with userid := userid }
  | .login i => o.login i
  | .failLogin i => o.modify i fun c => { c with logins := c.logins + 1 }
  | .disconnect i => o.disconnect i

end CeriosCluster.ClientGateway
