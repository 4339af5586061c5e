import ObscuraProto.ConfigFile

/-
  A configuration file as a list of overrides.

  The lines of a file are read against a grammar of settings
  and headers that does not mention the parser.  The parser
  finds exactly these lines, and a file overrides the fields
  that its settings name.  The versions are the exception:
  they start empty rather than at their defaults.

  Key definitions include:
    * `ConfigFile.IsSetting`, `ConfigFile.IsHeader`
    * `ConfigFile.Settings`
    * `ConfigFile.Setting.update`, `ConfigFile.overridden`
    * `ConfigFile.ConfigField`

  Key theorems include:
    * `ConfigFile.parseYamlLine_eq_setting_iff`
    * `ConfigFile.settings_determined`
    * `ConfigFile.fromYaml_eq_overridden`
    * `ConfigFile.fromYaml_agrees_defaults`
    * `ConfigFile.from_yaml_overrides_iff`
-/

namespace ObscuraProto

namespace ConfigFile

------------------------------------------------------------
-- The Grammar of Lines
------------------------------------------------------------

/-
  Blanks may stand in front of a word; blanks and carriage
  returns may follow it.
-/
abbrev Padded (word s : Text) : Prop :=
  Lexing.Padded isBlank isTrailing word s

/- A colon divides the line, which may end in a comment. -/
def Divides (line before after : Text) : Prop :=
  ':' ∉ before ∧ '#' ∉ before ∧ '#' ∉ after ∧
    ∃ comment : Text,
      line = (before ++ ':' :: after) ++ comment ∧
        (comment = [] ∨ ∃ rest, comment = '#' :: rest)

/- `key: value`. -/
def IsSetting (line key value : Text) : Prop :=
  ∃ before after,
    Divides line before after ∧
      Padded key before ∧ Padded value after ∧ value ≠ []

/- `name:`. -/
def IsHeader (line name : Text) : Prop :=
  ∃ before after,
    Divides line before after ∧
      Padded name before ∧ Padded [] after

------------------------------------------------------------
-- The Parser Finds Them
------------------------------------------------------------

/- What stands before the first mark, and the rest. -/
theorem split_at_mark
    {mark : Char}
    {before : Text}
    (hNone : mark ∉ before)
    (after : Text) :
    (before ++ mark :: after).takeWhile (· ≠ mark) = before ∧
      (before ++ mark :: after).dropWhile (· ≠ mark) =
        mark :: after := by
  have hAll : ∀ c ∈ before, decide (c ≠ mark) = true := by
    intro c hMem
    rw [decide_eq_true_iff]
    rintro hMark
    rw [hMark] at hMem
    exact hNone hMem
  rw [List.takeWhile_append_of_pos hAll,
    List.dropWhile_append_of_pos hAll]
  simp

theorem stripComment_eq
    {content comment : Text}
    (hNone : '#' ∉ content)
    (hComment : comment = [] ∨ ∃ rest, comment = '#' :: rest) :
    stripComment (content ++ comment) = content := by
  rcases hComment with hEmpty | ⟨rest, hRest⟩
  · rw [hEmpty, List.append_nil, stripComment,
      List.takeWhile_eq_self_iff]
    intro c hMem
    rw [decide_eq_true_iff]
    rintro hMark
    rw [hMark] at hMem
    exact hNone hMem
  · rw [hRest]
    exact (split_at_mark hNone rest).1

/- Every line is its content and perhaps a comment. -/
theorem exists_comment (line : Text) :
    '#' ∉ stripComment line ∧
      ∃ comment : Text,
        line = stripComment line ++ comment ∧
          (comment = [] ∨ ∃ rest, comment = '#' :: rest) := by
  by_cases hHash : '#' ∈ line
  · rcases List.eq_append_cons_of_mem hHash with
      ⟨content, rest, hLine, hNone⟩
    have hContent :=
      stripComment_eq hNone (Or.inr ⟨rest, rfl⟩)
    rw [← hLine] at hContent
    rw [hContent]
    exact ⟨hNone, '#' :: rest, hLine, Or.inr ⟨rest, rfl⟩⟩
  · have hContent := stripComment_eq hHash (Or.inl rfl)
    rw [List.append_nil] at hContent
    rw [hContent]
    exact
      ⟨hHash, [], (List.append_nil line).symm, Or.inl rfl⟩

theorem stripComment_of_divides
    {line before after : Text}
    (hDivides : Divides line before after) :
    stripComment line = before ++ ':' :: after := by
  rcases hDivides with
    ⟨_, hBefore, hAfter, comment, hLine, hComment⟩
  rw [hLine]
  refine stripComment_eq ?_ hComment
  intro hMem
  rcases List.mem_append.mp hMem with hFirst | hSecond
  · exact hBefore hFirst
  · rcases List.mem_cons.mp hSecond with hColon | hLast
    · cases hColon
    · exact hAfter hLast

theorem exists_divides
    {line : Text}
    (hColon : ':' ∈ stripComment line) :
    ∃ before after, Divides line before after := by
  rcases List.eq_append_cons_of_mem hColon with
    ⟨before, after, hContent, hNone⟩
  rcases exists_comment line with
    ⟨hNoHash, comment, hLine, hComment⟩
  rw [hContent] at hNoHash hLine
  simp only [List.mem_append, List.mem_cons, not_or]
    at hNoHash
  exact
    ⟨before, after, hNone, hNoHash.1, hNoHash.2.2, comment,
      hLine, hComment⟩

/- A line with a colon is read on both sides of it. -/
theorem parseYamlLine_of_divides
    {line before after : Text}
    (hDivides : Divides line before after)
    (header : Text) :
    parseYamlLine line header =
      if trim after = [] then
        (none, trim before)
      else
        (some (trim before, trim after), header) := by
  have hContent :
      trim (stripComment line) =
        before.dropWhile isBlank ++
          ':' :: after.rdropWhile isTrailing := by
    rw [stripComment_of_divides hDivides]
    exact Lexing.trim_append_cons rfl rfl before after
  have hNone : ':' ∉ before.dropWhile isBlank := by
    intro hMem
    exact
      hDivides.1
        ((List.dropWhile_sublist isBlank).mem hMem)
  have hSides :=
    split_at_mark hNone (after.rdropWhile isTrailing)
  have hBefore :
      trim (before.dropWhile isBlank) = trim before :=
    Lexing.trim_dropWhile before
  have hAfter :
      trim (after.rdropWhile isTrailing) = trim after :=
    Lexing.trim_rdropWhile after
  unfold parseYamlLine
  simp only [hContent, hSides.1, hSides.2, List.drop_one,
    List.tail_cons, hBefore, hAfter]
  rw [if_neg (by simp), if_neg (by simp)]

/- A line without one is neither. -/
theorem parseYamlLine_of_no_colon
    {line : Text}
    (hNone : ':' ∉ stripComment line)
    (header : Text) :
    parseYamlLine line header = (none, header) := by
  have hContent : ':' ∉ trim (stripComment line) := by
    intro hMem
    have hDropped :
        ':' ∈ (stripComment line).dropWhile isBlank :=
      (List.rdropWhile_prefix isTrailing _).subset hMem
    exact
      hNone ((List.dropWhile_sublist isBlank).mem hDropped)
  simp only [parseYamlLine, hContent, not_false_eq_true,
    if_true, ite_self]

theorem parseYamlLine_of_setting
    {line key value : Text}
    (hSetting : IsSetting line key value)
    (header : Text) :
    parseYamlLine line header =
      (some (key, value), header) := by
  rcases hSetting with
    ⟨before, after, hDivides, hKey, hValue, hSome⟩
  have hTrimKey : trim before = key :=
    Lexing.trim_of_padded hKey
  have hTrimValue : trim after = value :=
    Lexing.trim_of_padded hValue
  rw [parseYamlLine_of_divides hDivides, hTrimKey,
    hTrimValue, if_neg hSome]

theorem parseYamlLine_of_header
    {line name : Text}
    (hHeader : IsHeader line name)
    (header : Text) :
    parseYamlLine line header = (none, name) := by
  rcases hHeader with ⟨before, after, hDivides, hName, hNone⟩
  have hTrimName : trim before = name :=
    Lexing.trim_of_padded hName
  have hTrimNone : trim after = [] :=
    Lexing.trim_of_padded hNone
  rw [parseYamlLine_of_divides hDivides, hTrimName,
    hTrimNone, if_pos rfl]

/- A line is a setting, a header or neither. -/
theorem line_cases (line : Text) :
    (∃ key value, IsSetting line key value) ∨
      (∃ name, IsHeader line name) ∨
        ∀ header, parseYamlLine line header =
          (none, header) := by
  by_cases hColon : ':' ∈ stripComment line
  · rcases exists_divides hColon with
      ⟨before, after, hDivides⟩
    have hKey : Padded (trim before) before :=
      Lexing.padded_trim before
    have hValue : Padded (trim after) after :=
      Lexing.padded_trim after
    by_cases hNone : trim after = []
    · rw [hNone] at hValue
      exact
        Or.inr
          (Or.inl
            ⟨trim before, before, after, hDivides, hKey,
              hValue⟩)
    · exact
        Or.inl
          ⟨trim before, trim after, before, after, hDivides,
            hKey, hValue, hNone⟩
  · exact Or.inr (Or.inr (parseYamlLine_of_no_colon hColon))

/- The parser finds the settings of the grammar. -/
theorem parseYamlLine_eq_setting_iff
    {line header key value : Text} :
    parseYamlLine line header =
        (some (key, value), header) ↔
      IsSetting line key value := by
  constructor
  · intro hParse
    rcases line_cases line with
      ⟨key', value', hSetting⟩ | ⟨name, hHeader⟩ | hNeither
    · rw [parseYamlLine_of_setting hSetting] at hParse
      cases hParse
      exact hSetting
    · rw [parseYamlLine_of_header hHeader] at hParse
      cases hParse
    · rw [hNeither] at hParse
      cases hParse
  · exact fun hSetting => parseYamlLine_of_setting hSetting header

------------------------------------------------------------
-- The Settings of a File
------------------------------------------------------------

/- A setting with the section that it stands in. -/
structure Setting where
  header : Text
  key : Text
  value : Text

/-
  The settings of some lines in their order, each with the
  name of the last header before it.
-/
inductive Settings : Text → List Text → List Setting → Prop
| nil (header : Text) : Settings header [] []
| setting
    {header line key value : Text}
    {lines : List Text}
    {later : List Setting} :
    IsSetting line key value →
      Settings header lines later →
        Settings header (line :: lines)
          (⟨header, key, value⟩ :: later)
| header
    {header line name : Text}
    {lines : List Text}
    {later : List Setting} :
    IsHeader line name →
      Settings name lines later →
        Settings header (line :: lines) later
| neither
    {header line : Text}
    {lines : List Text}
    {later : List Setting} :
    (∀ key value, ¬ IsSetting line key value) →
      (∀ name, ¬ IsHeader line name) →
        Settings header lines later →
          Settings header (line :: lines) later

/- Every list of lines has its settings, and no others. -/
theorem settings_determined
    (header : Text)
    (lines : List Text) :
    ∃ settings,
      ∀ others,
        Settings header lines others ↔ others = settings := by
  induction lines generalizing header with
  | nil =>
      refine ⟨[], fun others => ⟨?_, ?_⟩⟩
      · intro hSettings
        cases hSettings
        rfl
      · intro hEmpty
        rw [hEmpty]
        exact .nil header
  | cons line lines ih =>
      rcases line_cases line with
        ⟨key, value, hSetting⟩ | ⟨name, hHeader⟩ | hNeither
      · rcases ih header with ⟨later, hLater⟩
        have hParse := parseYamlLine_of_setting hSetting header
        refine ⟨⟨header, key, value⟩ :: later, ?_⟩
        intro others
        constructor
        · intro hSettings
          cases hSettings with
          | setting hOther hRest =>
              rw [parseYamlLine_of_setting hOther] at hParse
              cases hParse
              rw [(hLater _).mp hRest]
          | header hOther hRest =>
              rw [parseYamlLine_of_header hOther] at hParse
              cases hParse
          | neither hNot _ _ =>
              exact absurd hSetting (hNot key value)
        · intro hSame
          rw [hSame]
          exact .setting hSetting ((hLater later).mpr rfl)
      · rcases ih name with ⟨later, hLater⟩
        have hParse := parseYamlLine_of_header hHeader header
        refine ⟨later, fun others => ⟨?_, ?_⟩⟩
        · intro hSettings
          cases hSettings with
          | setting hOther hRest =>
              rw [parseYamlLine_of_setting hOther] at hParse
              cases hParse
          | header hOther hRest =>
              rw [parseYamlLine_of_header hOther] at hParse
              cases hParse
              exact (hLater _).mp hRest
          | neither _ hNot _ => exact absurd hHeader (hNot name)
        · intro hSame
          rw [hSame]
          exact .header hHeader ((hLater later).mpr rfl)
      · rcases ih header with ⟨later, hLater⟩
        have hNoSetting (key value : Text) :
            ¬ IsSetting line key value := by
          intro hSetting
          have hParse := hNeither header
          rw [parseYamlLine_of_setting hSetting] at hParse
          cases hParse
        have hNoHeader (name : Text) :
            ¬ IsHeader line name := by
          intro hHeader
          -- Headers of two names would be found in one line.
          have hParse := hNeither ('x' :: name)
          rw [parseYamlLine_of_header hHeader] at hParse
          exact List.ne_cons_self (Prod.mk.inj hParse).2
        refine ⟨later, fun others => ⟨?_, ?_⟩⟩
        · intro hSettings
          cases hSettings with
          | setting hOther _ =>
              exact absurd hOther (hNoSetting _ _)
          | header hOther _ =>
              exact absurd hOther (hNoHeader _)
          | neither _ _ hRest => exact (hLater _).mp hRest
        · intro hSame
          rw [hSame]
          exact
            .neither hNoSetting hNoHeader
              ((hLater later).mpr rfl)

------------------------------------------------------------
-- Overrides
------------------------------------------------------------

/-
  What a setting does, if its key is recognised and its value
  parses; a list without versions does not.
-/
def Setting.update (s : Setting) : Option (Config → Config) :=
  match ConfigKey.ofText s.key with
  | some .enabled =>
      (Section.ofText s.header).map
        (fun which => (which.set (parseEnabled s.value) ·))
  | some (.limit field) =>
      (parseUint32 s.value).toOption.map
        (fun v => (field.set v ·))
  | some (.opcode field) =>
      (parseUint32 s.value).toOption.map
        (fun v => (field.set v.toUInt16 ·))
  | some .supportedVersions =>
      match scanVersions s.value with
      | .ok (v :: vs) =>
          some (fun cfg =>
            { cfg with supportedVersions := v :: vs })
      | _ => none
  | none => none

def Setting.apply (cfg : Config) (s : Setting) : Config :=
  match s.update with
  | some f => f cfg
  | none => cfg

/- The settings override the configuration, one by one. -/
def overridden
    (cfg : Config)
    (settings : List Setting) : Config :=
  settings.foldl Setting.apply cfg

/- The setting names versions, and they parse. -/
def Setting.SetsVersions (s : Setting) : Prop :=
  ConfigKey.ofText s.key = some .supportedVersions ∧
    ∃ v vs, scanVersions s.value = .ok (v :: vs)

/- A line that throws leaves what a line without effect does. -/
theorem apply_eq_applySetting
    (cfg : Config)
    (s : Setting) :
    s.apply cfg =
      match applySetting s.header s.key s.value cfg with
      | .ok cfg' => cfg'
      | .error _ => cfg := by
  unfold Setting.apply Setting.update applySetting
  cases ConfigKey.ofText s.key with
  | none => rfl
  | some key =>
      cases key with
      | enabled => cases Section.ofText s.header <;> rfl
      | limit field => cases parseUint32 s.value <;> rfl
      | opcode field => cases parseUint32 s.value <;> rfl
      | supportedVersions =>
          cases scanVersions s.value with
          | error e => rfl
          | ok versions => cases versions <;> rfl

/- One line applies one setting. -/
theorem processLine_of_setting
    {line key value : Text}
    (hSetting : IsSetting line key value)
    (cfg : Config)
    (header : Text) :
    processLine ⟨cfg, header⟩ line =
      ⟨Setting.apply cfg ⟨header, key, value⟩, header⟩ := by
  rw [apply_eq_applySetting]
  simp only [processLine, parseYamlLine_of_setting hSetting]
  cases applySetting header key value cfg <;> rfl

/- The loop applies the settings of the lines. -/
theorem foldl_processLine
    {lines : List Text}
    {header : Text}
    {settings : List Setting}
    (hSettings : Settings header lines settings)
    (cfg : Config) :
    (lines.foldl processLine ⟨cfg, header⟩).cfg =
      overridden cfg settings := by
  induction hSettings generalizing cfg with
  | nil header => rfl
  | @setting header line key value lines later hSetting _ ih =>
      rw [List.foldl_cons, processLine_of_setting hSetting, ih]
      rfl
  | header hHeader _ ih =>
      rw [List.foldl_cons, ← ih]
      simp only [processLine, parseYamlLine_of_header hHeader]
  | @neither header line lines later hNoSetting hNoHeader _ ih =>
      have hParse :
          parseYamlLine line header = (none, header) := by
        rcases line_cases line with
          ⟨key, value, hSetting⟩ | ⟨name, hHeader⟩ | hNeither
        · exact absurd hSetting (hNoSetting key value)
        · exact absurd hHeader (hNoHeader name)
        · exact hNeither header
      rw [List.foldl_cons, ← ih]
      simp only [processLine, hParse]

/- A file that cannot be opened has no lines. -/
def linesOf : Option Text → List Text
| none => []
| some content => getlines content

theorem fromYaml_eq_overridden
    {file : Option Text}
    {settings : List Setting}
    (hSettings : Settings [] (linesOf file) settings) :
    Config.fromYaml file = overridden {} settings := by
  cases file with
  | none =>
      cases hSettings
      rfl
  | some content => exact foldl_processLine hSettings {}

------------------------------------------------------------
-- The Versions
------------------------------------------------------------

/- The configuration with other versions. -/
def withVersions
    (versions : List Version)
    (cfg : Config) : Config :=
  { cfg with supportedVersions := versions }

/- Settings of versions forget what was there. -/
theorem Setting.SetsVersions.apply
    {s : Setting}
    (hSets : s.SetsVersions)
    (versions : List Version)
    (cfg : Config) :
    s.apply (withVersions versions cfg) = s.apply cfg := by
  rcases hSets with ⟨hKey, v, vs, hScan⟩
  simp only [Setting.apply, Setting.update, hKey, hScan]
  rfl

/- All others leave the versions alone. -/
theorem apply_withVersions
    {s : Setting}
    (hNot : ¬ s.SetsVersions)
    (versions : List Version)
    (cfg : Config) :
    s.apply (withVersions versions cfg) =
      withVersions versions (s.apply cfg) := by
  unfold Setting.apply Setting.update
  cases hKey : ConfigKey.ofText s.key with
  | none => rfl
  | some key =>
      cases key with
      | enabled =>
          cases Section.ofText s.header with
          | none => rfl
          | some which => cases which <;> rfl
      | limit field =>
          cases parseUint32 s.value with
          | error e => rfl
          | ok v => cases field <;> rfl
      | opcode field =>
          cases parseUint32 s.value with
          | error e => rfl
          | ok v => cases field <;> rfl
      | supportedVersions =>
          cases hScan : scanVersions s.value with
          | error e => rfl
          | ok found =>
              cases found with
              | nil => rfl
              | cons v vs => exact absurd ⟨hKey, v, vs, hScan⟩ hNot

theorem overridden_sets
    {settings : List Setting}
    (hSets : ∃ s ∈ settings, s.SetsVersions)
    (versions : List Version)
    (cfg : Config) :
    overridden (withVersions versions cfg) settings =
      overridden cfg settings := by
  induction settings generalizing cfg with
  | nil =>
      rcases hSets with ⟨s, hMem, _⟩
      cases hMem
  | cons s later ih =>
      simp only [overridden, List.foldl_cons] at ih ⊢
      by_cases hHere : s.SetsVersions
      · rw [hHere.apply]
      · rw [apply_withVersions hHere]
        apply ih
        rcases hSets with ⟨t, hMem, hThere⟩
        rcases List.mem_cons.mp hMem with hFirst | hLater
        · rw [hFirst] at hThere
          exact absurd hThere hHere
        · exact ⟨t, hLater, hThere⟩

theorem overridden_withVersions
    {settings : List Setting}
    (hNot : ∀ s ∈ settings, ¬ s.SetsVersions)
    (versions : List Version)
    (cfg : Config) :
    overridden (withVersions versions cfg) settings =
      withVersions versions (overridden cfg settings) := by
  induction settings generalizing cfg with
  | nil => rfl
  | cons s later ih =>
      simp only [overridden, List.foldl_cons] at ih ⊢
      rw [apply_withVersions (hNot s List.mem_cons_self)]
      exact
        ih (fun t hMem => hNot t (List.mem_cons_of_mem _ hMem))
          _

------------------------------------------------------------
-- Fields That Are Left Alone
------------------------------------------------------------

inductive ConfigField where
| enabled (which : Section)
| limit (field : LimitKey)
| opcode (field : OpcodeKey)
| supportedVersions
deriving DecidableEq, Repr

/- Both configurations hold the same in the field. -/
def ConfigField.Agrees
    (cfg cfg' : Config) : ConfigField → Prop
| .enabled which => which.get cfg' = which.get cfg
| .limit field => field.get cfg' = field.get cfg
| .opcode field => field.get cfg' = field.get cfg
| .supportedVersions =>
    cfg'.supportedVersions = cfg.supportedVersions

theorem ConfigField.Agrees.refl
    (cfg : Config)
    (field : ConfigField) :
    field.Agrees cfg cfg := by
  cases field <;> rfl

theorem ConfigField.Agrees.trans
    {cfg₁ cfg₂ cfg₃ : Config}
    {field : ConfigField}
    (hFirst : field.Agrees cfg₁ cfg₂)
    (hSecond : field.Agrees cfg₂ cfg₃) :
    field.Agrees cfg₁ cfg₃ := by
  cases field with
  | enabled which => exact Eq.trans hSecond hFirst
  | limit field => exact Eq.trans hSecond hFirst
  | opcode field => exact Eq.trans hSecond hFirst
  | supportedVersions => exact Eq.trans hSecond hFirst

theorem agrees_set_enabled
    {which : Section}
    {field : ConfigField}
    (hOther : field ≠ .enabled which)
    (v : Bool)
    (cfg : Config) :
    field.Agrees cfg (which.set v cfg) := by
  cases field with
  | enabled which' =>
      cases which <;> cases which' <;>
        first | rfl | exact absurd rfl hOther
  | limit field => cases which <;> cases field <;> rfl
  | opcode field => cases which <;> cases field <;> rfl
  | supportedVersions => cases which <;> rfl

theorem agrees_set_limit
    {key : LimitKey}
    {field : ConfigField}
    (hOther : field ≠ .limit key)
    (v : UInt32)
    (cfg : Config) :
    field.Agrees cfg (key.set v cfg) := by
  cases field with
  | enabled which => cases key <;> cases which <;> rfl
  | limit key' =>
      cases key <;> cases key' <;>
        first | rfl | exact absurd rfl hOther
  | opcode field => cases key <;> cases field <;> rfl
  | supportedVersions => cases key <;> rfl

theorem agrees_set_opcode
    {key : OpcodeKey}
    {field : ConfigField}
    (hOther : field ≠ .opcode key)
    (v : OpCode)
    (cfg : Config) :
    field.Agrees cfg (key.set v cfg) := by
  cases field with
  | enabled which => cases key <;> cases which <;> rfl
  | limit field => cases key <;> cases field <;> rfl
  | opcode key' =>
      cases key <;> cases key' <;>
        first | rfl | exact absurd rfl hOther
  | supportedVersions => cases key <;> rfl

theorem agrees_set_versions
    {field : ConfigField}
    (hOther : field ≠ .supportedVersions)
    (versions : List Version)
    (cfg : Config) :
    field.Agrees cfg
      { cfg with supportedVersions := versions } := by
  cases field with
  | enabled which => cases which <;> rfl
  | limit field => cases field <;> rfl
  | opcode field => cases field <;> rfl
  | supportedVersions => exact absurd rfl hOther

/- The field that a setting is about. -/
def Setting.field (s : Setting) : Option ConfigField :=
  match ConfigKey.ofText s.key with
  | some .enabled => (Section.ofText s.header).map .enabled
  | some (.limit field) => some (.limit field)
  | some (.opcode field) => some (.opcode field)
  | some .supportedVersions => some .supportedVersions
  | none => none

theorem Setting.apply_agrees
    {s : Setting}
    {field : ConfigField}
    (hOther : s.field ≠ some field)
    (cfg : Config) :
    field.Agrees cfg (s.apply cfg) := by
  unfold Setting.field at hOther
  unfold Setting.apply Setting.update
  cases hKey : ConfigKey.ofText s.key with
  | none => exact .refl cfg field
  | some key =>
      rw [hKey] at hOther
      cases key with
      | enabled =>
          cases hSection : Section.ofText s.header with
          | none => exact .refl cfg field
          | some which =>
              rw [hSection] at hOther
              apply agrees_set_enabled
              rintro hSame
              exact hOther (by rw [hSame]; rfl)
      | limit key =>
          cases parseUint32 s.value with
          | error e => exact .refl cfg field
          | ok v =>
              apply agrees_set_limit
              rintro hSame
              exact hOther (by rw [hSame])
      | opcode key =>
          cases parseUint32 s.value with
          | error e => exact .refl cfg field
          | ok v =>
              apply agrees_set_opcode
              rintro hSame
              exact hOther (by rw [hSame])
      | supportedVersions =>
          have hNot : field ≠ .supportedVersions := by
            rintro hSame
            exact hOther (by rw [hSame])
          cases scanVersions s.value with
          | error e => exact .refl cfg field
          | ok versions =>
              cases versions with
              | nil => exact .refl cfg field
              | cons v vs =>
                  exact agrees_set_versions hNot (v :: vs) cfg

/- A field that no setting has an effect on is kept. -/
theorem overridden_agrees
    {settings : List Setting}
    {field : ConfigField}
    (hOthers :
      ∀ s ∈ settings, s.update ≠ none → s.field ≠ some field)
    (cfg : Config) :
    field.Agrees cfg (overridden cfg settings) := by
  induction settings generalizing cfg with
  | nil => exact .refl cfg field
  | cons s later ih =>
      have hFirst : field.Agrees cfg (s.apply cfg) := by
        by_cases hNone : s.update = none
        · rw [Setting.apply, hNone]
          exact .refl cfg field
        · exact
            Setting.apply_agrees
              (hOthers s List.mem_cons_self hNone) cfg
      refine hFirst.trans (ih ?_ _)
      intro t hMem
      exact hOthers t (List.mem_cons_of_mem _ hMem)

/- But for the versions, what is not set is a default. -/
theorem fromYaml_agrees_defaults
    {file : Option Text}
    {settings : List Setting}
    (hSettings : Settings [] (linesOf file) settings)
    {field : ConfigField}
    (hOthers :
      ∀ s ∈ settings, s.update ≠ none → s.field ≠ some field)
    (hNot : field ≠ .supportedVersions) :
    field.Agrees Config.withDefaults (Config.fromYaml file) := by
  rw [fromYaml_eq_overridden hSettings]
  refine .trans ?_ (overridden_agrees hOthers {})
  exact agrees_set_versions hNot [] Config.withDefaults

------------------------------------------------------------
-- The Law
------------------------------------------------------------

/-
  Every file has its settings, and the result is what they
  make of the defaults exactly when one of them sets the
  versions.
-/
theorem from_yaml_overrides_iff (file : Option Text) :
    ∃ settings,
      (∀ others,
          Settings [] (linesOf file) others ↔
            others = settings) ∧
        (Config.fromYaml file =
            overridden Config.withDefaults settings ↔
          ∃ s ∈ settings, s.SetsVersions) := by
  rcases settings_determined [] (linesOf file) with
    ⟨settings, hDetermined⟩
  have hDefaults :
      Config.withDefaults =
        withVersions [Versions.v1_1, Versions.v1_0] {} := rfl
  refine ⟨settings, hDetermined, ?_⟩
  rw [fromYaml_eq_overridden ((hDetermined settings).mpr rfl),
    hDefaults]
  constructor
  · intro hSame
    by_contra hNone
    have hNot : ∀ s ∈ settings, ¬ s.SetsVersions :=
      fun s hMem hSets => hNone ⟨s, hMem, hSets⟩
    have hEmpty :
        overridden {} settings =
          withVersions [] (overridden {} settings) :=
      overridden_withVersions hNot [] {}
    rw [overridden_withVersions hNot, hEmpty] at hSame
    have hVersions := congrArg Config.supportedVersions hSame
    cases hVersions
  · intro hSets
    exact (overridden_sets hSets _ {}).symm

/- Without a file there are no versions at all. -/
theorem missing_file_has_no_versions :
    Settings [] (linesOf none) [] ∧
      Config.fromYaml none ≠
        overridden Config.withDefaults [] ∧
      (Config.fromYaml none).supportedVersions = [] ∧
      Config.withDefaults.supportedVersions =
        [Versions.v1_1, Versions.v1_0] :=
  ⟨.nil [], by decide, rfl, rfl⟩

end ConfigFile

end ObscuraProto
