import ObscuraProto.Packet

/-
  The configuration record with its built-in defaults, and
  the classification of operation codes by the configured
  reserved codes.

  Key definitions include:
    * `RateLimitConfig`, `ConnectionLimitConfig`
    * `MessageLimitConfig`, `TimeoutConfig`
    * `ReservedOpcodes`, `ReservedOpcodes.classify`
    * `Config`, `Config.withDefaults`
    * `Config.resolveRequestTimeout`
-/

namespace ObscuraProto

structure RateLimitConfig where
  enabled : Bool := true
  messagesPerSecond : UInt32 := 100
  burstSize : UInt32 := 200
  handshakeAttemptsPerMinute : UInt32 := 10
  connectionsPerMinute : UInt32 := 30
deriving DecidableEq, Repr

structure ConnectionLimitConfig where
  enabled : Bool := true
  maxPerIp : UInt32 := 10
  maxTotal : UInt32 := 1000
deriving DecidableEq, Repr

structure MessageLimitConfig where
  enabled : Bool := true
  maxWsFrameSize : UInt32 := 1048576
  maxDecryptedPayload : UInt32 := 65535
deriving DecidableEq, Repr

structure TimeoutConfig where
  enabled : Bool := true
  handshakeMs : UInt32 := 10000
  idleMs : UInt32 := 300000
  checkIntervalMs : UInt32 := 5000
  requestMs : UInt32 := 30000
deriving DecidableEq, Repr

structure ReservedOpcodes where
  response : OpCode := 0xFFFF
  streamStart : OpCode := 0xFFFD
  streamData : OpCode := 0xFFFC
  streamEnd : OpCode := 0xFFFB
  streamCancel : OpCode := 0xFFFA
deriving DecidableEq, Repr

/- The branches of `on_message` on a decrypted payload. -/
inductive MessageKind where
| response
| streamStart
| streamData
| streamEnd
| streamCancel
| application
deriving DecidableEq, Repr

/- Both wrappers compare with the codes in this order. -/
def ReservedOpcodes.classify
    (oc : ReservedOpcodes)
    (opCode : OpCode) : MessageKind :=
  if opCode = oc.response then
    .response
  else if opCode = oc.streamStart then
    .streamStart
  else if opCode = oc.streamData then
    .streamData
  else if opCode = oc.streamEnd then
    .streamEnd
  else if opCode = oc.streamCancel then
    .streamCancel
  else
    .application

/- The last branches are taken on their own codes only. -/
theorem ReservedOpcodes.eq_streamData
    {oc : ReservedOpcodes}
    {opCode : OpCode}
    (hKind : oc.classify opCode = .streamData) :
    opCode = oc.streamData := by
  unfold classify at hKind
  grind

theorem ReservedOpcodes.eq_streamEnd
    {oc : ReservedOpcodes}
    {opCode : OpCode}
    (hKind : oc.classify opCode = .streamEnd) :
    opCode = oc.streamEnd := by
  unfold classify at hKind
  grind

theorem ReservedOpcodes.eq_streamCancel
    {oc : ReservedOpcodes}
    {opCode : OpCode}
    (hKind : oc.classify opCode = .streamCancel) :
    opCode = oc.streamCancel := by
  unfold classify at hKind
  grind

structure Config where
  rateLimit : RateLimitConfig := {}
  connectionLimits : ConnectionLimitConfig := {}
  messageLimits : MessageLimitConfig := {}
  timeouts : TimeoutConfig := {}
  opcodes : ReservedOpcodes := {}
  supportedVersions : List Version := []
deriving DecidableEq, Repr

namespace Config

def withDefaults : Config :=
  { supportedVersions :=
      [Versions.v1_1, Versions.v1_0] }

/-
  Both wrappers resolve the timeout of a request alike: an
  explicit value wins, zero means unlimited.
-/
def resolveRequestTimeout
    (explicitMs : UInt32)
    (cfg : Config) : UInt32 :=
  if explicitMs > 0 then
    explicitMs
  else if cfg.timeouts.enabled then
    cfg.timeouts.requestMs
  else
    0

/-
  The check of a decrypted payload against
  `max_decrypted_payload`, on either side of the wire.
-/
def payloadTooLarge
    (payload : Payload)
    (cfg : Config) : Bool :=
  cfg.messageLimits.enabled &&
    cfg.messageLimits.maxDecryptedPayload > 0 &&
    payload.parameters.length >
      cfg.messageLimits.maxDecryptedPayload.toNat

end Config

end ObscuraProto
