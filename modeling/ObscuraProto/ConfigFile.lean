import ObscuraProto.Config
import ObscuraProto.Library.Lexing

/-
  `Config::from_yaml`, line by line.

  A file is a list of characters, one for each byte.  A line
  that is no setting may still be a section header, which is
  carried along for the `enabled` keys; an exception in a
  line leaves the configuration as it was.  What goes to the
  error stream is left out.

  Key definitions include:
    * `stoul`, `parseUint32`
    * `ConfigFile.trim`, `ConfigFile.parseYamlLine`
    * `LimitKey`, `OpcodeKey`, `Section`, `ConfigKey`
    * `ConfigFile.scanVersions`
    * `ConfigFile.processLine`, `Config.fromYaml`
-/

namespace ObscuraProto

/- A `std::string`. -/
abbrev Text := List Char

------------------------------------------------------------
-- Numbers
------------------------------------------------------------

inductive StoulError where
| invalidArgument
| outOfRange
deriving DecidableEq, Repr

def isSpace (c : Char) : Bool :=
  c == ' ' || (9 ≤ c.toNat && c.toNat ≤ 13)

def digitValue (c : Char) : Nat :=
  if 48 ≤ c.toNat ∧ c.toNat ≤ 57 then
    c.toNat - 48
  else if 97 ≤ c.toNat ∧ c.toNat ≤ 122 then
    c.toNat - 87
  else if 65 ≤ c.toNat ∧ c.toNat ≤ 90 then
    c.toNat - 55
  else
    36

def isDigit (base : Nat) (c : Char) : Bool :=
  digitValue c < base

/- A sign, and whether it negates. -/
def takeSign : Text → Bool × Text
| '-' :: s => (true, s)
| '+' :: s => (false, s)
| s => (false, s)

/- `0x` belongs to the number when a digit follows. -/
def dropHexPrefix : Text → Text
| '0' :: x :: c :: s =>
    if (x = 'x' ∨ x = 'X') ∧ isDigit 16 c = true then
      c :: s
    else
      '0' :: x :: c :: s
| s => s

/-
  `std::stoul(s, nullptr, base)`: white space, a sign and as
  many digits as follow; the rest of the string is ignored
  and a minus negates in the unsigned type.
-/
def stoul
    (base : Nat)
    (s : Text) : Except StoulError UInt64 :=
  let (negative, s) := takeSign (s.dropWhile isSpace)
  let s := if base = 16 then dropHexPrefix s else s
  let digits := s.takeWhile (isDigit base)
  let n := Lexing.value digitValue base digits
  if digits = [] then
    .error .invalidArgument
  else if n ≥ 2 ^ 64 then
    .error .outOfRange
  else if negative then
    .ok (-UInt64.ofNat n)
  else
    .ok (UInt64.ofNat n)

/- `s.size() > 2` and the string begins with `0x`. -/
def isHexadecimal : Text → Bool
| '0' :: x :: _ :: _ => x = 'x' ∨ x = 'X'
| _ => false

/- The call of `std::stoul` in `parse_uint32`. -/
def stoulOf (s : Text) : Except StoulError UInt64 :=
  if isHexadecimal s then stoul 16 s else stoul 10 s

def parseUint32 (s : Text) : Except StoulError UInt32 :=
  if s = [] then
    .ok 0
  else
    (stoulOf s).map UInt64.toUInt32

------------------------------------------------------------
-- Lines
------------------------------------------------------------

namespace ConfigFile

def isBlank (c : Char) : Bool :=
  c = ' ' ∨ c = '\t'

def isTrailing (c : Char) : Bool :=
  c = ' ' ∨ c = '\t' ∨ c = '\r'

def trim (s : Text) : Text :=
  Lexing.trim isBlank isTrailing s

def stripComment (line : Text) : Text :=
  line.takeWhile (· ≠ '#')

/-
  The key and the value of a setting, and the section after
  the line.  Whatever its indentation, a header replaces the
  section.
-/
def parseYamlLine
    (line header : Text) : Option (Text × Text) × Text :=
  let content := trim (stripComment line)
  if content = [] then
    (none, header)
  else if ':' ∉ content then
    (none, header)
  else
    let before := trim (content.takeWhile (· ≠ ':'))
    let after := trim ((content.dropWhile (· ≠ ':')).drop 1)
    if after = [] then
      (none, before)
    else
      (some (before, after), header)

/- `std::getline` until it fails. -/
def getlines : Text → List Text
| [] => []
| '\n' :: s => [] :: getlines s
| c :: s =>
    match getlines s with
    | [] => [[c]]
    | line :: lines => (c :: line) :: lines

end ConfigFile

------------------------------------------------------------
-- Keys
------------------------------------------------------------

/- The keys of 32-bit fields. -/
inductive LimitKey where
| messagesPerSecond
| burstSize
| handshakeAttemptsPerMinute
| connectionsPerMinute
| maxPerIp
| maxTotal
| maxWsFrameSize
| maxDecryptedPayload
| handshakeMs
| idleMs
| checkIntervalMs
| requestMs
deriving DecidableEq, Repr

/- The keys of 16-bit fields. -/
inductive OpcodeKey where
| response
| streamStart
| streamData
| streamEnd
| streamCancel
deriving DecidableEq, Repr

/- The sections that have an `enabled` key. -/
inductive Section where
| rateLimiting
| connectionLimits
| messageLimits
| timeouts
deriving DecidableEq, Repr

inductive ConfigKey where
| enabled
| limit (key : LimitKey)
| opcode (key : OpcodeKey)
| supportedVersions
deriving DecidableEq, Repr

/- The keys that are recognised, in the order of the tests. -/
def ConfigKey.ofText (key : Text) : Option ConfigKey :=
  if key = "enabled".toList then
    some .enabled
  else if key = "messages_per_second".toList then
    some (.limit .messagesPerSecond)
  else if key = "burst_size".toList then
    some (.limit .burstSize)
  else if key = "handshake_attempts_per_minute".toList then
    some (.limit .handshakeAttemptsPerMinute)
  else if key = "connections_per_minute".toList then
    some (.limit .connectionsPerMinute)
  else if key = "max_per_ip".toList then
    some (.limit .maxPerIp)
  else if key = "max_total".toList then
    some (.limit .maxTotal)
  else if key = "max_ws_frame_size".toList then
    some (.limit .maxWsFrameSize)
  else if key = "max_decrypted_payload".toList then
    some (.limit .maxDecryptedPayload)
  else if key = "handshake_ms".toList then
    some (.limit .handshakeMs)
  else if key = "idle_ms".toList then
    some (.limit .idleMs)
  else if key = "check_interval_ms".toList then
    some (.limit .checkIntervalMs)
  else if key = "request_ms".toList then
    some (.limit .requestMs)
  else if key = "RESPONSE".toList then
    some (.opcode .response)
  else if key = "STREAM_START".toList then
    some (.opcode .streamStart)
  else if key = "STREAM_DATA".toList then
    some (.opcode .streamData)
  else if key = "STREAM_END".toList then
    some (.opcode .streamEnd)
  else if key = "STREAM_CANCEL".toList then
    some (.opcode .streamCancel)
  else if key = "supported_versions".toList then
    some .supportedVersions
  else
    none

def Section.ofText (header : Text) : Option Section :=
  if header = "rate_limiting".toList then
    some .rateLimiting
  else if header = "connection_limits".toList then
    some .connectionLimits
  else if header = "message_limits".toList then
    some .messageLimits
  else if header = "timeouts".toList then
    some .timeouts
  else
    none

namespace LimitKey

/- The field of the key. -/
def get (cfg : Config) : LimitKey → UInt32
| .messagesPerSecond => cfg.rateLimit.messagesPerSecond
| .burstSize => cfg.rateLimit.burstSize
| .handshakeAttemptsPerMinute =>
    cfg.rateLimit.handshakeAttemptsPerMinute
| .connectionsPerMinute => cfg.rateLimit.connectionsPerMinute
| .maxPerIp => cfg.connectionLimits.maxPerIp
| .maxTotal => cfg.connectionLimits.maxTotal
| .maxWsFrameSize => cfg.messageLimits.maxWsFrameSize
| .maxDecryptedPayload =>
    cfg.messageLimits.maxDecryptedPayload
| .handshakeMs => cfg.timeouts.handshakeMs
| .idleMs => cfg.timeouts.idleMs
| .checkIntervalMs => cfg.timeouts.checkIntervalMs
| .requestMs => cfg.timeouts.requestMs

def set (v : UInt32) (cfg : Config) : LimitKey → Config
| .messagesPerSecond =>
    { cfg with
      rateLimit :=
        { cfg.rateLimit with messagesPerSecond := v } }
| .burstSize =>
    { cfg with
      rateLimit := { cfg.rateLimit with burstSize := v } }
| .handshakeAttemptsPerMinute =>
    { cfg with
      rateLimit :=
        { cfg.rateLimit with
          handshakeAttemptsPerMinute := v } }
| .connectionsPerMinute =>
    { cfg with
      rateLimit :=
        { cfg.rateLimit with connectionsPerMinute := v } }
| .maxPerIp =>
    { cfg with
      connectionLimits :=
        { cfg.connectionLimits with maxPerIp := v } }
| .maxTotal =>
    { cfg with
      connectionLimits :=
        { cfg.connectionLimits with maxTotal := v } }
| .maxWsFrameSize =>
    { cfg with
      messageLimits :=
        { cfg.messageLimits with maxWsFrameSize := v } }
| .maxDecryptedPayload =>
    { cfg with
      messageLimits :=
        { cfg.messageLimits with maxDecryptedPayload := v } }
| .handshakeMs =>
    { cfg with
      timeouts := { cfg.timeouts with handshakeMs := v } }
| .idleMs =>
    { cfg with timeouts := { cfg.timeouts with idleMs := v } }
| .checkIntervalMs =>
    { cfg with
      timeouts := { cfg.timeouts with checkIntervalMs := v } }
| .requestMs =>
    { cfg with
      timeouts := { cfg.timeouts with requestMs := v } }

@[simp] theorem get_set
    (field : LimitKey)
    (v : UInt32)
    (cfg : Config) :
    field.get (field.set v cfg) = v := by
  cases field <;> rfl

end LimitKey

namespace OpcodeKey

def get (cfg : Config) : OpcodeKey → OpCode
| .response => cfg.opcodes.response
| .streamStart => cfg.opcodes.streamStart
| .streamData => cfg.opcodes.streamData
| .streamEnd => cfg.opcodes.streamEnd
| .streamCancel => cfg.opcodes.streamCancel

def set (v : OpCode) (cfg : Config) : OpcodeKey → Config
| .response =>
    { cfg with opcodes := { cfg.opcodes with response := v } }
| .streamStart =>
    { cfg with
      opcodes := { cfg.opcodes with streamStart := v } }
| .streamData =>
    { cfg with
      opcodes := { cfg.opcodes with streamData := v } }
| .streamEnd =>
    { cfg with
      opcodes := { cfg.opcodes with streamEnd := v } }
| .streamCancel =>
    { cfg with
      opcodes := { cfg.opcodes with streamCancel := v } }

@[simp] theorem get_set
    (field : OpcodeKey)
    (v : OpCode)
    (cfg : Config) :
    field.get (field.set v cfg) = v := by
  cases field <;> rfl

end OpcodeKey

namespace Section

def get (cfg : Config) : Section → Bool
| .rateLimiting => cfg.rateLimit.enabled
| .connectionLimits => cfg.connectionLimits.enabled
| .messageLimits => cfg.messageLimits.enabled
| .timeouts => cfg.timeouts.enabled

def set (v : Bool) (cfg : Config) : Section → Config
| .rateLimiting =>
    { cfg with
      rateLimit := { cfg.rateLimit with enabled := v } }
| .connectionLimits =>
    { cfg with
      connectionLimits :=
        { cfg.connectionLimits with enabled := v } }
| .messageLimits =>
    { cfg with
      messageLimits :=
        { cfg.messageLimits with enabled := v } }
| .timeouts =>
    { cfg with
      timeouts := { cfg.timeouts with enabled := v } }

@[simp] theorem get_set
    (which : Section)
    (v : Bool)
    (cfg : Config) :
    which.get (which.set v cfg) = v := by
  cases which <;> rfl

end Section

------------------------------------------------------------
-- Values
------------------------------------------------------------

namespace ConfigFile

/- Anything but these three is false. -/
def parseEnabled (value : Text) : Bool :=
  value = "true".toList ∨ value = "yes".toList ∨
    value = "1".toList

/- A character of `0123456789xXabcdefABCDEF`. -/
def isVersionChar (c : Char) : Bool :=
  c ∈ "0123456789xXabcdefABCDEF".toList

/-
  The loop over `value` from `pos` on, for at most so many
  versions.
-/
def scanFrom : Nat → Text → Except StoulError (List Version)
| 0, _ => .ok []
| n + 1, s =>
    let start := s.dropWhile (fun c => !isVersionChar c)
    if start = [] then
      .ok []
    else do
      let num ← stoul 16 (start.takeWhile isVersionChar)
      let later ← scanFrom n (start.dropWhile isVersionChar)
      return num.toUInt16 :: later

/- There are no more versions than characters. -/
def scanVersions
    (value : Text) : Except StoulError (List Version) :=
  scanFrom value.length value

/- The body of the `try` block. -/
def applySetting
    (header key value : Text)
    (cfg : Config) : Except StoulError Config :=
  match ConfigKey.ofText key with
  | some .enabled =>
      match Section.ofText header with
      | some which => .ok (which.set (parseEnabled value) cfg)
      | none => .ok cfg
  | some (.limit field) => do
      let v ← parseUint32 value
      return field.set v cfg
  | some (.opcode field) => do
      let v ← parseUint32 value
      return field.set v.toUInt16 cfg
  | some .supportedVersions => do
      let versions ← scanVersions value
      if versions = [] then
        return cfg
      else
        return { cfg with supportedVersions := versions }
  | none => .ok cfg

/- What is carried from line to line. -/
structure State where
  cfg : Config
  header : Text

/- One round of the loop; an exception is reported only. -/
def processLine (st : State) (line : Text) : State :=
  match parseYamlLine line st.header with
  | (none, header) => { st with header := header }
  | (some (key, value), header) =>
      match applySetting header key value st.cfg with
      | .ok cfg => { cfg := cfg, header := header }
      | .error _ => { st with header := header }

end ConfigFile

/- `none` is a file that cannot be opened. -/
def Config.fromYaml : Option Text → Config
| none => {}
| some content =>
    ((ConfigFile.getlines content).foldl
      ConfigFile.processLine
      { cfg := {}, header := [] }).cfg

end ObscuraProto
