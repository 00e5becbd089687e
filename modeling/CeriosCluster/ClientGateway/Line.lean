import CeriosCluster.ClientGateway.ClientBoundForm
import CeriosCluster.Lib.History

/-!
# What a connection says

The abstract machine of one connection, as its log tells it. A line has a state of the protocol, the keep-alive waits
that are running, whether `ClientServer` has the client, and the cipher its bytes go through. One turn is what a handler
does in one go: it hears bytes, takes note of a packet, answers, asks for the secret, agrees on a key, switches
the encryption on, admits the player or keeps it alive. What other nodes have for the player is relayed in between.
-/

namespace CeriosCluster.ClientGateway

open CeriosCluster.Lib CeriosCluster.MCPacket

structure Line where
  state : ClientState
  timers : Nat
  joined : Bool
  encrypted : Bool
  context : Option CipherContext
  deriving DecidableEq

def Line.start : Line := ⟨.HANDSHAKE, 0, false, false, none⟩

def Client.line (c : Client) : Line :=
  ⟨c.state, c.waitsPending, decide (c.owner = .clientServer), c.encrypted, c.encryptCipherContext⟩

namespace Line

/-- What a cipher makes of data after what it has processed. -/
def advance (l : Line) (context : CipherContext) (data : Bytes) : Line :=
  { l with context := some { context with processed := context.processed ++ data } }

variable (E : Env)

/-- Data goes out: as it is, or encrypted in one run with all that went before it. A cipher that fails is not
noticed: zeroes go out in the place of the data, and more of them. -/
inductive Carries (data : Bytes) : Line → List Action → Line → Prop
  | clear {l : Line} (hclear : l.encrypted = false) : Carries data l [.sendData data false, .write .data data] l
  | encrypted {l : Line} {context : CipherContext} {ciphertext : Block data.length} (hencrypted : l.encrypted = true)
      (hcontext : l.context = some context) (hupdate : E.cipher.encryptUpdate context data = some ciphertext) :
      Carries data l [.sendData data true, .write .encryptedData ciphertext.val] (l.advance context data)
  | failed {l : Line} {context : CipherContext} (hencrypted : l.encrypted = true) (hcontext : l.context = some context)
      (hupdate : E.cipher.encryptUpdate context data = none) :
      Carries data l [.sendData data true,
        .write .encryptedData (List.replicate (data.length + EVP_MAX_BLOCK_LENGTH) 0)] l

/-- A packet goes out in its frame. -/
inductive Sends (p : Packet) : Line → List Action → Line → Prop
  | framed {l l' : Line} {data : Bytes} {as : List Action} (hframe : frame (p.serialized getSide) = some data)
      (hcarries : Carries E data l as l') : Sends p l (.sendPacket p :: as) l'

variable {E}

theorem Sends.timers {p : Packet} {l l' : Line} {as : List Action} (h : Sends E p l as l') (n : Nat) :
    Sends E p { l with timers := n } as { l' with timers := n } := by
  obtain ⟨hframe, hcarries⟩ := h
  refine .framed hframe ?_
  cases hcarries with
  | clear hclear => exact .clear hclear
  | encrypted hencrypted hcontext hupdate => exact .encrypted hencrypted hcontext hupdate
  | failed hencrypted hcontext hupdate => exact .failed hencrypted hcontext hupdate

variable (E)

inductive SendsFresh (a : Ambient) : List Word → Line → List Action → Line → Prop
  | nil (l : Line) : SendsFresh a [] l [] l
  | cons {id : Word} {ids : List Word} {p : Packet} {l l₁ l' : Line} {as as' : List Action}
      (hp : newPacket .clientBound .PLAY id a = some p) (hsends : Sends E p l as l₁)
        (hrest : SendsFresh a ids l₁ as' l') :
      SendsFresh a (id :: ids) l (as ++ as') l'

def play (l : Line) : Line := { l with state := .PLAY, timers := l.timers + 1 }

/-- One turn of a live connection of its own. -/
inductive Turn : Line → List Action → Line → Prop
  | hears (l : Line) (bytes : Bytes) : Turn l [.appended bytes] l
  | ignores {l : Line} {p : Packet} (hother : ∀ f, p.fields = .handshake f → l.state ≠ .HANDSHAKE) :
    Turn l [.receivedMessage p] l
  | handshake {l : Line} {p : Packet} {f : HandshakePacket} (hp : p.fields = .handshake f) (hstate : l.state =
    .HANDSHAKE) :
      Turn l [.receivedMessage p] { l with state := f.requestedNextState }
  | answers {l l' : Line} {p : Packet} {as : List Action} (hstate : l.state = .STATUS)
      (hp : p.fields.packetClass = .serverStatus ∨ p.fields.packetClass = .ping) (hsends : Sends E p l as l') :
        Turn l as l'
  | asks {l l' : Line} {p : Packet} {as : List Action} (hstate : l.state = .LOGIN) (hp : p.fields.packetClass =
    .encryption)
      (hsends : Sends E p l as l') : Turn l as l'
  | agrees {l : Line} {verifyTokenBuffer : Bytes} {verifyToken : Block 4} (key : Block 16) (hstate : l.state = .LOGIN)
      (htoken : verifyTokenBuffer <+: verifyToken.val) :
      Turn l [.tokenMatched verifyTokenBuffer verifyToken] { l with context := some ⟨key, []⟩ }
  | encrypts {l : Line} (sharedSecret : Bytes) (decryptContext : Option CipherContext) (hkey : l.context.isSome)
      (hstate : l.state = .LOGIN ∨ l.state = .PLAY) :
      Turn l [.hasJoined sharedSecret l.context decryptContext] { l with encrypted := true }
  | refuses {l : Line} {p : Packet} (hstate : l.state = .LOGIN ∨ l.state = .PLAY) (hp : p.fields.packetClass =
    .loginSuccess)
      (hlarge : frame (p.serialized getSide) = none) : Turn l [.onPlayerLogin, .sendPacket p] l
  | admits {l l' : Line} {p : Packet} {as : List Action} (hstate : l.state = .LOGIN ∨ l.state = .PLAY)
      (hp : p.fields.packetClass = .loginSuccess) (hsends : Sends E p l as l') : Turn l (.onPlayerLogin :: as) l'.play
  | joins {l l₁ l' : Line} {p : Packet} {as as' : List Action} {a : Ambient} (hstate : l.state = .LOGIN ∨
    l.state = .PLAY)
      (hp : p.fields.packetClass = .loginSuccess) (hlogin : l.joined = false) (hsends : Sends E p l as l₁)
      (hjoin : SendsFresh E a [0x01, 0x05, 0x08, 0x39] { l₁.play with joined := true } as' l') :
      Turn l (.onPlayerLogin :: (as ++ as')) l'
  | keepsAlive {l l' : Line} {p : Packet} {as : List Action} (hstate : l.state = .PLAY) (hwaits : 0 < l.timers)
      (hp : p.fields.packetClass = .keepAlive) (hsends : Sends E p l as l') : Turn l as l'
  | expires {l : Line} (hwaits : 0 < l.timers) : Turn l [] { l with timers := l.timers - 1 }

/-- A payload that another node has for a player who has joined goes out in its frame. -/
inductive Relays (payload : Bytes) : Line → List Action → Line → Prop
  | framed {l l' : Line} {data : Bytes} {as : List Action} (hjoined : l.joined = true) (hframe : frame payload =
    some data)
      (hcarries : Carries E data l as l') : Relays payload l as l'

/-- What is done on a live connection in one go. -/
inductive Talks : Line → List Action → Line → Prop
  | speaks {l l' : Line} {as : List Action} (h : Turn E l as l') : Talks l as l'
  | relays {l l' : Line} {as : List Action} (payload : Bytes) (h : Relays E payload l as l') : Talks l as l'

end Line

end CeriosCluster.ClientGateway
