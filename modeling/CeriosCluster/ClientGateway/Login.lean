import CeriosCluster.ClientGateway.Owners
import CeriosCluster.ClientGateway.Digest
import CeriosCluster.ClientGateway.Http

/-!
# Logging in

`receivedMessage` handles one packet of a client. An accepted `EncryptionPacket` initialises the two
ciphers and starts a session-server request, whose handlers run one after the other until
`onHasJoinedPostComplete` switches encryption on and logs the player in.
-/

namespace CeriosCluster.ClientGateway

open CeriosCluster.Lib CeriosCluster.MCPacket

variable (E : Env) (w : World)

def onPlayerLogin (i : ConnId) : M Unit := do
  record i .onPlayerLogin
  let c ← client i
  match newPacket .clientBound .LOGIN 0x02 w.ambient with
  | some p@⟨_, _, _, .loginSuccess f⟩ =>
    sendPacket E i { p with fields := .loginSuccess { f with uuid := c.userid, username := c.requestedUsername } }
  | _ => Exec.undefined
  modifyClient i fun c => { c with state := .PLAY }
  modifyClient i fun c => { c with waitsPending := c.waitsPending + 1 }
  let c ← client i
  handoffClient E w c.owner i

/-! ## The session-server request -/

def requestText (requestedUsername serverIdHexDigest : Bytes) : Bytes :=
  ascii "GET " ++ ascii "/session/minecraft/hasJoined" ++ ascii "?username=" ++ requestedUsername ++
    ascii "&serverId=" ++ serverIdHexDigest ++ ascii " HTTP/1.1" ++ ascii "\r\n" ++
    ascii "Host: " ++ ascii "sessionserver.mojang.com" ++ ascii "\r\n" ++
    ascii "User-Agent: " ++ ascii "Cerios Cluster (Minecraft Server)" ++ ascii "\r\n" ++
    ascii "Connection: " ++ ascii "Close" ++ ascii "\r\n\r\n"

/-- `Client::authWithMojang`; `sharedSecret` is what the digest was computed over. -/
def authWithMojang (i : ConnId) (sharedSecret serverIdHexDigest : Bytes) : M Unit := do
  let c ← client i
  let text := requestText c.requestedUsername serverIdHexDigest
  if !w.resolves then Exec.throw .systemError
  else modifyClient i fun c => { c with requests := c.requests ++ [⟨sharedSecret, text, .connecting⟩] }

def setStage (i : ConnId) (k : Nat) (stage : Stage) : M Unit :=
  modifyClient i fun c => { c with requests := c.requests.modify k fun r => { r with stage := stage } }

/-- `Client::connectedToMojang`, which ignores the error; `set_option` throws unless the socket is open. -/
def connectedToMojang (i : ConnId) (k : Nat) (isOpen : Bool) : M Unit := do
  setStage i k .finished
  if isOpen then setStage i k .handshaking else Exec.throw .systemError

def sslHandshakeComplete (i : ConnId) (k : Nat) (error : Bool) : M Unit := do
  setStage i k .finished
  if error then pure () else setStage i k .sending

def sendHTTPRequestDone (i : ConnId) (k : Nat) (error : Bool) : M Unit := do
  setStage i k .finished
  if error then pure () else setStage i k .readingHeader

/-- `Client::readHTTPHeader`, over what has arrived up to the end of the header or beyond. -/
def readHTTPHeader (i : ConnId) (k : Nat) (error : Bool) (data : Bytes) : M Unit := do
  setStage i k .finished
  let c ← client i
  if error || !c.alive then pure ()
  else
    match headerLines data with
    | .threw e => Exec.throw e
    | .notOk => do
      remoteEndpoint i
      socketCancel i
    | .fields httpKVPairs rest =>
      match stoul (headerField (ascii "Content-Length") httpKVPairs) with
      | .error _ => pure ()
      | .ok contentLength => setStage i k (.readingBody contentLength rest)

inductive ReadError
  | none
  | eof
  | other
  deriving DecidableEq

/-- `Client::onHasJoinedPostComplete`, over the stream buffer. `Parse` reads the text up to a null
character. -/
def onHasJoinedPostComplete (i : ConnId) (k : Nat) (sharedSecret : Bytes) (error : ReadError) (data : Bytes)
    (length : Nat) : M Unit := do
  setStage i k .finished
  if error = .other ∨ error = .eof ∧ data.length < length then pure ()
  else if data.length < length then Exec.undefined
  else
    match E.parsePlayerInfo ((data.take length).takeWhile (· != 0)) with
    | none => Exec.undefined
    | some (id, name) => do
      modifyClient i fun c => { c with userid := formatUUID id }
      modifyClient i fun c => { c with requestedUsername := name }
      modifyClient i fun c => { c with encrypted := true }
      modifyClient i fun c => { c with buffer := [] }
      let c ← client i
      record i (.hasJoined sharedSecret c.encryptCipherContext c.decryptCipherContext)
      onPlayerLogin E w i

/-! ## The packets of a client -/

def serverStatusJson : Bytes :=
  ascii ("\x7b" ++ "\"version\": \x7b" ++ "    \"name\": \"1.8.8\"," ++ "    \"protocol\": 47" ++ "\x7d," ++
    "\"players\": \x7b" ++ "    \"max\": 10000," ++ "    \"online\": 0" ++ "\x7d," ++
    "\"description\": \x7b" ++ "    \"text\": \"Hello World!\"" ++ "\x7d" ++ "\x7d")

/-- `LoginStartPacket` in `LOGIN`: a loopback client is logged in at once, any other is asked for its
secret and the verify token. The digest has 32 bytes, so the check of the id's length never fails. -/
def receivedLoginStart (i : ConnId) (loginRequest : LoginStartPacket) : M Unit := do
  modifyClient i fun c => { c with requestedUsername := loginRequest.playerName }
  remoteEndpoint i
  let c ← client i
  if c.socket.loopback then do
    let hashData := E.sha256 c.requestedUsername
    modifyClient i fun c => { c with userid := (make_hex_string hashData.val).take 32 }
    modifyClient i fun c => { c with userid := formatUUID c.userid }
    onPlayerLogin E w i
  else do
    match newPacket .clientBound .LOGIN 0x01 w.ambient with
    | some p@⟨_, _, _, .encryption f⟩ => do
      modifyClient i fun c => { c with verifyToken := w.verifyToken }
      sendPacket E i
        { p with fields := .encryption { f with publickKey := E.publicKeyString, clearVerifyToken := w.verifyToken } }
    | _ => Exec.undefined

/-- The token as it lies in `clearVerifyToken` once the decrypted bytes are copied over it; more than four
bytes write past it. -/
def copyVerifyToken (verifyTokenBuffer : Bytes) (clearVerifyToken : Block 4) : M Bytes :=
  if 4 < verifyTokenBuffer.length then Exec.undefined
  else pure (verifyTokenBuffer ++ clearVerifyToken.val.drop verifyTokenBuffer.length)

/-- `EVP_EncryptInit_ex` and `EVP_DecryptInit_ex`, which read the first sixteen bytes of the secret. -/
def initCiphers (i : ConnId) (clearSharedSecret : Bytes) : M Unit :=
  if h : (clearSharedSecret.take 16).length = 16 then
    modifyClient i fun c =>
      { c with
        encryptCipherContext := some ⟨⟨clearSharedSecret.take 16, h⟩, []⟩
        decryptCipherContext := some ⟨⟨clearSharedSecret.take 16, h⟩, []⟩ }
  else Exec.undefined

/-- The server-bound `EncryptionPacket` in `LOGIN`, after a `LoginStartPacket`. -/
def receivedEncryption (i : ConnId) (encryptionResponse : EncryptionPacket) : M Unit := do
  let c ← client i
  if !w.pkeyContext || !w.pkeyDecryptInit || !w.pkeyPadding then pure ()
  else
    match w.pkeyDecrypt encryptionResponse.sealedVerifyToken, w.pkeyDecrypt encryptionResponse.sealedSharedSecret with
    | some verifyTokenBuffer, some clearSharedSecret => do
      let clearVerifyToken ← copyVerifyToken verifyTokenBuffer encryptionResponse.clearVerifyToken
      if c.verifyToken.val ≠ clearVerifyToken then pure ()
      else do
        record i (.tokenMatched verifyTokenBuffer c.verifyToken)
        initCiphers i clearSharedSecret
        if !w.sha1Init then pure ()
        else do
          let shaDigest := E.sha1 (encryptionResponse.serverId ++ clearSharedSecret ++ E.publicKeyString)
          let hashString ← hashString shaDigest.val
          authWithMojang w i clearSharedSecret hashString
    | _, _ => pure ()

/-- `Client::receivedMessage`. A packet that no branch takes is dropped. -/
def receivedMessage (i : ConnId) (packet : Packet) : M Unit := do
  record i (.receivedMessage packet)
  match packet.fields with
  | .ping _ => do
    sendPacket E i packet
    let c ← client i
    if c.state = .STATUS then socketCancel i else pure ()
  | .keepAlive _ => pure ()
  | fields => do
    let c ← client i
    if ← onPacketReceived c.owner i packet then pure ()
    else
      match fields with
      | .handshake handshake =>
        if c.state = .HANDSHAKE then modifyClient i fun c => { c with state := handshake.requestedNextState }
        else pure ()
      | .serverStatus f =>
        if c.state = .STATUS then
          sendPacket E i { packet with fields := .serverStatus { f with jsonEncodedServerStatus := serverStatusJson } }
        else pure ()
      | .loginStart loginRequest =>
        if c.state = .LOGIN then receivedLoginStart E w i loginRequest else pure ()
      | .encryption encryptionResponse =>
        if c.state = .LOGIN ∧ c.requestedUsername ≠ [] then receivedEncryption E w i encryptionResponse else pure ()
      | _ => pure ()

end CeriosCluster.ClientGateway
