import SnippetLens.Proofs.Config.Lookup
import SnippetLens.Proofs.Config.Tidy

/-!
The schema of the configuration, and what a document says of each field.

`Fits` tells that a document holds nothing of the wrong kind in a place that the schema names, and
`Describes` that settings are what the document says, with the defaults where it says nothing. The
main statement is that a document is read with success just if it fits, and that the settings are
then the ones that it describes.
-/

namespace SnippetLens.Config

open Files Toolchain

/-! ### The schema -/

inductive Kind where
  | text
  | boolean
  | texts
  /-- An integer that is not negative, and below a bound if there is one. -/
  | natural (bound : Option Nat)

def Kind.Holds : Kind → Toml.Value → Prop
  | .text, v => ∃ s, v = .text s
  | .boolean, v => ∃ b, v = .boolean b
  | .texts, v => ∃ l : List String, v = .array (l.map .text)
  | .natural bound, v => ∃ n : Nat, v = .integer n ∧ ∀ b ∈ bound, n < b

/-- The keys of a section and the kinds of their values. An array has the values in this order. -/
abbrev Schema := List (String × Kind)

def toolchainSchema : Schema :=
  [("android_home", .text), ("kotlin_home", .text), ("java_home", .text),
    ("build_tools_version", .text), ("platform", .text)]

def buildSchema : Schema :=
  [("optimize", .boolean), ("min_api", .natural (some 4294967296)), ("scratch_dir", .text),
    ("timeout_secs", .natural none), ("device_dir", .text)]

def filterSchema : Schema :=
  [("suppressed_prefixes", .texts), ("include_virtual_methods", .boolean)]

def schema : List (String × Schema) :=
  [("toolchain", toolchainSchema), ("build", buildSchema), ("filters", filterSchema)]

theorem toolchain_mem_schema : ("toolchain", toolchainSchema) ∈ schema := by
  simp [schema]

theorem build_mem_schema : ("build", buildSchema) ∈ schema := by
  simp [schema]

theorem filters_mem_schema : ("filters", filterSchema) ∈ schema := by
  simp [schema]

/-! ### What a document says -/

inductive IsSection : Toml.Value → Prop where
  | table (entries : List (String × Toml.Value)) : IsSection (.table entries)
  | array (items : List Toml.Value) : IsSection (.array items)
  | moment : IsSection .moment

def contents (fields : Schema) : Toml.Value → List (String × Toml.Value)
  | .table entries => entries
  | .array items => (fields.map (·.1)).zip items
  | _ => []

/-- What the section with a name says under a key, if it is there and says anything. -/
def given (entries : List (String × Toml.Value)) (name : String) (fields : Schema) (key : String) :
    Option Toml.Value :=
  (entries.lookup name).bind fun v => (contents fields v).lookup key

/-- The sections of a document can be sections, and their fields hold values of their kinds. -/
structure Fits (entries : List (String × Toml.Value)) : Prop where
  sections : ∀ part ∈ schema, ∀ v ∈ entries.lookup part.1, IsSection v
  fields : ∀ part ∈ schema, ∀ field ∈ part.2,
    ∀ v ∈ given entries part.1 part.2 field.1, field.2.Holds v

/-- A setting is what is written in its place, or the default if nothing is. -/
def Says {α : Type} (write : α → Toml.Value) (default : α) (place : Option Toml.Value) (a : α) :
    Prop :=
  match place with
  | none => a = default
  | some v => v = write a

structure Describes (entries : List (String × Toml.Value)) (s : Settings) : Prop where
  androidHome : given entries "toolchain" toolchainSchema "android_home" =
    s.toolchain.androidHome.map fun p => .text p.text
  kotlinHome : given entries "toolchain" toolchainSchema "kotlin_home" =
    s.toolchain.kotlinHome.map fun p => .text p.text
  javaHome : given entries "toolchain" toolchainSchema "java_home" =
    s.toolchain.javaHome.map fun p => .text p.text
  buildTools : given entries "toolchain" toolchainSchema "build_tools_version" =
    s.toolchain.buildTools.map .text
  platform : given entries "toolchain" toolchainSchema "platform" =
    s.toolchain.platform.map .text
  optimize : Says .boolean true (given entries "build" buildSchema "optimize") s.build.optimize
  minApi : Says (fun n : Nat => .integer n) 21 (given entries "build" buildSchema "min_api")
    s.build.minApi
  scratch : given entries "build" buildSchema "scratch_dir" =
    s.build.scratch.map fun p => .text p.text
  timeoutSeconds : given entries "build" buildSchema "timeout_secs" =
    s.build.timeoutSeconds.map fun n : Nat => .integer n
  deviceDirectory : Says .text "/sdcard" (given entries "build" buildSchema "device_dir")
    s.build.deviceDirectory
  suppressed : Says (fun l => .array (l.map .text)) Listing.Suppression.runtimePackages
    (given entries "filters" filterSchema "suppressed_prefixes") s.filters.suppressed
  virtualMethods : Says .boolean false
    (given entries "filters" filterSchema "include_virtual_methods") s.filters.virtualMethods

/-! ### Decoding one value -/

variable {α σ : Type} {v : Toml.Value} {place : Option Toml.Value}

theorem decodeText_eq_ok_iff {expected s : String} :
    decodeText expected v = .ok s ↔ v = .text s := by
  cases v <;> simp [decodeText]

theorem decodePath_eq_ok_iff {p : FilePath} : decodePath v = .ok p ↔ v = .text p.text := by
  obtain ⟨text⟩ := p
  simp [decodePath, bind_eq_ok_iff, decodeText_eq_ok_iff, pure, Except.pure]

theorem decodeBoolean_eq_ok_iff {b : Bool} : decodeBoolean v = .ok b ↔ v = .boolean b := by
  cases v <;> simp [decodeBoolean]

theorem decodeNatural_eq_ok_iff {bound n : Nat} {expected : String} :
    decodeNatural bound expected v = .ok n ↔ v = .integer n ∧ n < bound := by
  cases v
  case integer m =>
    simp only [decodeNatural, Toml.Value.integer.injEq]
    split
    case isTrue h =>
      simp only [Bool.and_eq_true, decide_eq_true_eq] at h
      simp only [Except.ok.injEq]
      omega
    case isFalse h =>
      simp only [Bool.and_eq_true, decide_eq_true_eq] at h
      simp only [reduceCtorEq, false_iff]
      omega
  all_goals simp [decodeNatural]

theorem mapM_decodeText_eq_ok_iff {expected : String} {items : List Toml.Value} {l : List String} :
    items.mapM (decodeText expected) = .ok l ↔ items = l.map .text := by
  induction items generalizing l with
  | nil => cases l <;> simp [pure, Except.pure]
  | cons item items ih =>
    simp only [List.mapM_cons, bind_eq_ok_iff, decodeText_eq_ok_iff, ih, pure, Except.pure,
      Except.ok.injEq]
    constructor
    · rintro ⟨_, rfl, _, rfl, rfl⟩
      rfl
    · intro h
      cases l with
      | nil => cases h
      | cons s l =>
        cases h
        exact ⟨s, rfl, l, rfl, rfl⟩

theorem decodeTexts_eq_ok_iff {l : List String} :
    decodeTexts v = .ok l ↔ v = .array (l.map .text) := by
  cases v
  case array items =>
    exact mapM_decodeText_eq_ok_iff.trans (Toml.Value.array.injEq ..).to_iff.symm
  all_goals simp [decodeTexts]

/-! ### Reading one field -/

def Found (decode : Toml.Value → Except Mismatch α) (place : Option Toml.Value) (found : Option α) :
    Prop :=
  match place, found with
  | none, none => True
  | some v, some a => decode v = .ok a
  | _, _ => False

theorem Field.reads_of_iff {key : String} {decode : Toml.Value → Except Mismatch α}
    {put : α → σ → σ} {s s' : σ} :
    (Field.of key decode put).Reads place s s' ↔
      ∃ found, Found decode place found ∧ found.elim s (put · s) = s' := by
  cases place with
  | none =>
    constructor
    · rintro rfl
      exact ⟨none, trivial, rfl⟩
    · rintro ⟨_ | _, hfound, h⟩
      · exact h.symm
      · cases hfound
  | some v =>
    refine Field.set_of_eq_ok_iff.trans ⟨?_, ?_⟩
    · rintro ⟨a, ha, h⟩
      exact ⟨some a, ha, h⟩
    · rintro ⟨_ | a, hfound, h⟩
      · cases hfound
      · exact ⟨a, hfound, h⟩

theorem found_iff {decode : Toml.Value → Except Mismatch α} {write : α → Toml.Value}
    (h : ∀ {v a}, decode v = .ok a ↔ v = write a) {found : Option α} :
    Found decode place found ↔ place = found.map write := by
  cases place <;> cases found <;> simp [Found, h]

theorem found_decodeNatural_iff {bound : Nat} {expected : String} {found : Option Nat} :
    Found (decodeNatural bound expected) place found ↔
      place = found.map (fun n : Nat => .integer n) ∧ ∀ n ∈ found, n < bound := by
  cases place <;> cases found <;> simp [Found, decodeNatural_eq_ok_iff]

theorem says_iff {write : α → Toml.Value} {default a : α} :
    Says write default place a ↔
      ∃ found : Option α, place = found.map write ∧ found.getD default = a := by
  cases place with
  | none =>
    constructor
    · rintro rfl
      exact ⟨none, rfl, rfl⟩
    · rintro ⟨_ | _, h, rfl⟩
      · rfl
      · cases h
  | some v =>
    constructor
    · rintro rfl
      exact ⟨some a, rfl, rfl⟩
    · rintro ⟨_ | _, h, rfl⟩
      · cases h
      · exact Option.some.inj h

theorem exists_found_decodeNatural_iff {bound default n : Nat} {expected : String}
    (hdefault : default < bound) :
    (∃ found, Found (decodeNatural bound expected) place found ∧ found.getD default = n) ↔
      Says (fun n : Nat => .integer n) default place n ∧ n < bound := by
  simp only [found_decodeNatural_iff, says_iff]
  constructor
  · rintro ⟨found, ⟨hplace, hbound⟩, rfl⟩
    refine ⟨⟨found, hplace, rfl⟩, ?_⟩
    cases found with
    | none => exact hdefault
    | some n => exact hbound n rfl
  · rintro ⟨⟨found, hplace, rfl⟩, hbound⟩
    refine ⟨found, ⟨hplace, ?_⟩, rfl⟩
    rintro n ⟨⟩
    exact hbound

/-- No integer of a document is too large to be a number of seconds. -/
theorem found_seconds_iff {expected : String} {found : Option Nat}
    (htidy : ∀ v ∈ place, v.IsTidy) :
    Found (decodeNatural UInt64.size expected) place found ↔
      place = found.map fun n : Nat => .integer n := by
  refine found_decodeNatural_iff.trans (and_iff_left_of_imp ?_)
  rintro rfl n hn
  obtain _ | ⟨-, h⟩ := htidy (.integer n) (Option.map_eq_some_iff.2 ⟨n, hn, rfl⟩)
  have hmax : Int64.maxValue.toInt < UInt64.size := by decide
  omega

/-! ### Reading the sections -/

theorem readsAll_toolchainFields {place : String → Option Toml.Value} {s : Hints} :
    ReadsAll place toolchainFields {} s ↔
      Found decodePath (place "android_home") s.androidHome ∧
      Found decodePath (place "kotlin_home") s.kotlinHome ∧
      Found decodePath (place "java_home") s.javaHome ∧
      Found (decodeText "a string") (place "build_tools_version") s.buildTools ∧
      Found (decodeText "a string") (place "platform") s.platform := by
  simp only [toolchainFields, ReadsAll, Field.reads_of_iff]
  constructor
  · rintro ⟨_, ⟨android, handroid, rfl⟩, _, ⟨kotlin, hkotlin, rfl⟩, _, ⟨java, hjava, rfl⟩,
      _, ⟨tools, htools, rfl⟩, _, ⟨platform, hplatform, rfl⟩, hs⟩
    -- A field that is not found keeps its default, which is what `found` then stands for.
    have hs : s = ⟨android, kotlin, java, tools, platform⟩ := by
      rw [hs]
      cases android <;> cases kotlin <;> cases java <;> cases tools <;> cases platform <;> rfl
    subst hs
    exact ⟨handroid, hkotlin, hjava, htools, hplatform⟩
  · obtain ⟨android, kotlin, java, tools, platform⟩ := s
    rintro ⟨handroid, hkotlin, hjava, htools, hplatform⟩
    refine ⟨_, ⟨android, handroid, rfl⟩, _, ⟨kotlin, hkotlin, rfl⟩, _, ⟨java, hjava, rfl⟩,
      _, ⟨tools, htools, rfl⟩, _, ⟨platform, hplatform, rfl⟩, ?_⟩
    cases android <;> cases kotlin <;> cases java <;> cases tools <;> cases platform <;> rfl

theorem readsAll_buildFields {place : String → Option Toml.Value} {s : BuildSettings} :
    ReadsAll place buildFields {} s ↔
      (∃ found, Found decodeBoolean (place "optimize") found ∧ found.getD true = s.optimize) ∧
      (∃ found, Found (decodeNatural UInt32.size "u32") (place "min_api") found ∧
        found.getD 21 = s.minApi) ∧
      Found decodePath (place "scratch_dir") s.scratch ∧
      Found (decodeNatural UInt64.size "u64") (place "timeout_secs") s.timeoutSeconds ∧
      ∃ found, Found (decodeText "a string") (place "device_dir") found ∧
        found.getD "/sdcard" = s.deviceDirectory := by
  simp only [buildFields, ReadsAll, Field.reads_of_iff]
  constructor
  · rintro ⟨_, ⟨optimize, hoptimize, rfl⟩, _, ⟨api, hapi, rfl⟩, _, ⟨scratch, hscratch, rfl⟩,
      _, ⟨seconds, hseconds, rfl⟩, _, ⟨device, hdevice, rfl⟩, hs⟩
    have hs : s = ⟨optimize.getD true, api.getD 21, scratch, seconds, device.getD "/sdcard"⟩ := by
      rw [hs]
      cases optimize <;> cases api <;> cases scratch <;> cases seconds <;> cases device <;> rfl
    subst hs
    exact ⟨⟨optimize, hoptimize, rfl⟩, ⟨api, hapi, rfl⟩, hscratch, hseconds, device, hdevice, rfl⟩
  · obtain ⟨_, _, scratch, seconds, _⟩ := s
    rintro ⟨⟨optimize, hoptimize, rfl⟩, ⟨api, hapi, rfl⟩, hscratch, hseconds, device, hdevice, rfl⟩
    refine ⟨_, ⟨optimize, hoptimize, rfl⟩, _, ⟨api, hapi, rfl⟩, _, ⟨scratch, hscratch, rfl⟩,
      _, ⟨seconds, hseconds, rfl⟩, _, ⟨device, hdevice, rfl⟩, ?_⟩
    cases optimize <;> cases api <;> cases scratch <;> cases seconds <;> cases device <;> rfl

theorem readsAll_filterFields {place : String → Option Toml.Value} {s : FilterSettings} :
    ReadsAll place filterFields {} s ↔
      (∃ found, Found decodeTexts (place "suppressed_prefixes") found ∧
        found.getD Listing.Suppression.runtimePackages = s.suppressed) ∧
      ∃ found, Found decodeBoolean (place "include_virtual_methods") found ∧
        found.getD false = s.virtualMethods := by
  simp only [filterFields, ReadsAll, Field.reads_of_iff]
  constructor
  · rintro ⟨_, ⟨suppressed, hsuppressed, rfl⟩, _, ⟨virtual, hvirtual, rfl⟩, rfl⟩
    cases suppressed <;> cases virtual <;>
      exact ⟨⟨_, hsuppressed, rfl⟩, _, hvirtual, rfl⟩
  · obtain ⟨_, _⟩ := s
    rintro ⟨⟨suppressed, hsuppressed, rfl⟩, virtual, hvirtual, rfl⟩
    refine ⟨_, ⟨suppressed, hsuppressed, rfl⟩, _, ⟨virtual, hvirtual, rfl⟩, ?_⟩
    cases suppressed <;> cases virtual <;> rfl

theorem independent_toolchainFields : Independent toolchainFields where
  keys := by decide
  commutes := by
    simp only [toolchainFields, List.pairwise_cons, List.forall_mem_cons]
    refine ⟨⟨?_, ?_, ?_, ?_, by simp⟩, ⟨?_, ?_, ?_, by simp⟩, ⟨?_, ?_, by simp⟩, ⟨?_, by simp⟩,
      by simp, .nil⟩
    all_goals exact Field.commutes_of fun _ _ _ => rfl

theorem independent_buildFields : Independent buildFields where
  keys := by decide
  commutes := by
    simp only [buildFields, List.pairwise_cons, List.forall_mem_cons]
    refine ⟨⟨?_, ?_, ?_, ?_, by simp⟩, ⟨?_, ?_, ?_, by simp⟩, ⟨?_, ?_, by simp⟩, ⟨?_, by simp⟩,
      by simp, .nil⟩
    all_goals exact Field.commutes_of fun _ _ _ => rfl

theorem independent_filterFields : Independent filterFields where
  keys := by decide
  commutes := by
    simp only [filterFields, List.pairwise_cons, List.forall_mem_cons]
    refine ⟨⟨?_, by simp⟩, by simp, .nil⟩
    exact Field.commutes_of fun _ _ _ => rfl

theorem independent_sections : Independent sections where
  keys := by decide
  commutes := by
    simp only [sections, List.pairwise_cons, List.forall_mem_cons]
    refine ⟨⟨?_, ?_, by simp⟩, ⟨?_, by simp⟩, by simp, .nil⟩
    all_goals exact Field.commutes_of fun _ _ _ => rfl

theorem decodeSection_eq_ok_iff {expected : String} {fields : List (Field σ)} {kinds : Schema}
    {s s' : σ} (h : Independent fields) (hkeys : fields.map (·.key) = kinds.map (·.1))
    (htidy : v.IsTidy) :
    decodeSection expected fields s v = .ok s' ↔
      IsSection v ∧ ReadsAll ((contents kinds v).lookup ·) fields s s' := by
  cases v
  case table entries =>
    obtain _ | _ | _ | _ | _ | _ | ⟨hentries, -⟩ := htidy
    exact (decodeTable_eq_ok_iff h hentries).trans (and_iff_right (.table entries)).symm
  case array items =>
    rw [contents, ← hkeys]
    exact (decodeArray_eq_ok_iff h.keys).trans (and_iff_right (.array items)).symm
  case moment =>
    rw [and_iff_right .moment, readsAll_of_none fun _ _ => List.lookup_nil]
    exact (Except.ok.injEq ..).to_iff.trans eq_comm
  all_goals
    constructor
    · rintro ⟨⟩
    · rintro ⟨⟨⟩, -⟩

/-- What is found for a section, which may be missing, or else the section as it is to begin
with. -/
theorem found_decodeSection_iff {expected : String} {fields : List (Field σ)} (kinds : Schema)
    {s s' : σ} (h : Independent fields) (hkeys : fields.map (·.key) = kinds.map (·.1))
    (htidy : ∀ v ∈ place, v.IsTidy) :
    (∃ found, Found (decodeSection expected fields s) place found ∧ found.getD s = s') ↔
      (∀ v ∈ place, IsSection v) ∧
        ReadsAll (fun key => place.bind fun v => (contents kinds v).lookup key) fields s s' := by
  cases place with
  | none =>
    rw [readsAll_of_none fun _ _ => rfl]
    constructor
    · rintro ⟨_ | _, hfound, rfl⟩
      · exact ⟨by simp, rfl⟩
      · cases hfound
    · rintro ⟨-, rfl⟩
      exact ⟨none, trivial, rfl⟩
  | some v =>
    have hv : decodeSection expected fields s v = .ok s' ↔ _ :=
      decodeSection_eq_ok_iff h hkeys (htidy v rfl)
    simp only [Option.mem_some_iff, forall_eq', Option.bind_some]
    rw [← hv]
    constructor
    · rintro ⟨_ | found, hfound, rfl⟩
      · cases hfound
      · exact hfound
    · exact fun hfound => ⟨some s', hfound, rfl⟩

theorem readsAll_sections {place : String → Option Toml.Value} {s : Settings} :
    ReadsAll place sections {} s ↔
      (∃ found, Found (decodeSection "struct ToolchainConfig" toolchainFields {})
        (place "toolchain") found ∧ found.getD {} = s.toolchain) ∧
      (∃ found, Found (decodeSection "struct BuildConfig" buildFields {}) (place "build") found ∧
        found.getD {} = s.build) ∧
      ∃ found, Found (decodeSection "struct FiltersConfig" filterFields {}) (place "filters")
        found ∧ found.getD {} = s.filters := by
  simp only [sections, ReadsAll, Field.reads_of_iff]
  constructor
  · rintro ⟨_, ⟨toolchain, htoolchain, rfl⟩, _, ⟨build, hbuild, rfl⟩, _, ⟨filters, hfilters, rfl⟩,
      rfl⟩
    cases toolchain <;> cases build <;> cases filters <;>
      exact ⟨⟨_, htoolchain, rfl⟩, ⟨_, hbuild, rfl⟩, _, hfilters, rfl⟩
  · obtain ⟨_, _, _⟩ := s
    rintro ⟨⟨toolchain, htoolchain, rfl⟩, ⟨build, hbuild, rfl⟩, filters, hfilters, rfl⟩
    refine ⟨_, ⟨toolchain, htoolchain, rfl⟩, _, ⟨build, hbuild, rfl⟩, _, ⟨filters, hfilters, rfl⟩,
      ?_⟩
    cases toolchain <;> cases build <;> cases filters <;> rfl

/-! ### Reading the document -/

variable {entries : List (String × Toml.Value)} {s : Settings}

theorem isTidy_of_lookup {key : String} (h : (Toml.Value.table entries).IsTidy)
    (hv : entries.lookup key = some v) : v.IsTidy := by
  obtain _ | _ | _ | _ | _ | _ | ⟨-, hentries⟩ := h
  obtain ⟨before, after, rfl, -⟩ := List.lookup_eq_some_iff.1 hv
  exact hentries (key, v) (by simp)

theorem isTidy_contents {fields : Schema} (h : v.IsTidy) {e : String × Toml.Value}
    (he : e ∈ contents fields v) : e.2.IsTidy := by
  cases h
  case table hkeys hentries => exact hentries e he
  case array hitems => exact hitems e.2 (List.of_mem_zip he).2
  all_goals cases he

theorem ofTable_eq_ok_iff_readsAll (h : (Toml.Value.table entries).IsTidy) :
    Settings.ofTable entries = .ok s ↔
      (∀ part ∈ schema, ∀ v ∈ entries.lookup part.1, IsSection v) ∧
        ReadsAll (given entries "toolchain" toolchainSchema) toolchainFields {} s.toolchain ∧
        ReadsAll (given entries "build" buildSchema) buildFields {} s.build ∧
        ReadsAll (given entries "filters" filterSchema) filterFields {} s.filters := by
  have hkeys : (entries.map (·.1)).Nodup := by
    obtain _ | _ | _ | _ | _ | _ | ⟨hkeys, -⟩ := h
    exact hkeys
  have htidy (key : String) : ∀ v ∈ entries.lookup key, v.IsTidy := fun _ => isTidy_of_lookup h
  rw [Settings.ofTable, decodeTable_eq_ok_iff independent_sections hkeys, readsAll_sections,
    found_decodeSection_iff toolchainSchema independent_toolchainFields rfl (htidy _),
    found_decodeSection_iff buildSchema independent_buildFields rfl (htidy _),
    found_decodeSection_iff filterSchema independent_filterFields rfl (htidy _)]
  simp only [schema, List.forall_mem_cons]
  constructor
  · rintro ⟨⟨htoolchain, hhints⟩, ⟨hbuild, hsettings⟩, hfilters, hfilter⟩
    exact ⟨⟨htoolchain, hbuild, hfilters, by simp⟩, hhints, hsettings, hfilter⟩
  · rintro ⟨⟨htoolchain, hbuild, hfilters, -⟩, hhints, hsettings, hfilter⟩
    exact ⟨⟨htoolchain, hhints⟩, ⟨hbuild, hsettings⟩, hfilters, hfilter⟩

theorem isTidy_of_given (h : (Toml.Value.table entries).IsTidy) {name key : String}
    {fields : Schema} : ∀ v ∈ given entries name fields key, v.IsTidy := by
  intro v hv
  obtain ⟨part, hpart, hv⟩ := Option.bind_eq_some_iff.1 hv
  obtain ⟨before, after, hcontents, -⟩ := List.lookup_eq_some_iff.1 hv
  have hmem : (key, v) ∈ contents fields part := hcontents ▸ by simp
  exact isTidy_contents (isTidy_of_lookup h hpart) hmem

/-- Settings that are read from a document are the ones it describes, and these are read from it if
its sections can be sections and the API level is in range. -/
theorem ofTable_eq_ok_iff_describes (h : (Toml.Value.table entries).IsTidy) :
    Settings.ofTable entries = .ok s ↔
      (∀ part ∈ schema, ∀ v ∈ entries.lookup part.1, IsSection v) ∧ Describes entries s ∧
        s.build.minApi < 4294967296 := by
  rw [ofTable_eq_ok_iff_readsAll h, readsAll_toolchainFields, readsAll_buildFields,
    readsAll_filterFields, found_seconds_iff (isTidy_of_given h),
    exists_found_decodeNatural_iff (by decide)]
  simp only [found_iff decodePath_eq_ok_iff, found_iff decodeText_eq_ok_iff,
    found_iff decodeBoolean_eq_ok_iff, found_iff decodeTexts_eq_ok_iff, ← says_iff]
  refine and_congr_right fun _ => ⟨?_, ?_⟩
  · rintro ⟨⟨handroid, hkotlin, hjava, htools, hplatform⟩,
      ⟨hoptimize, ⟨hapi, hbound⟩, hscratch, hseconds, hdevice⟩, hsuppressed, hvirtual⟩
    exact ⟨⟨handroid, hkotlin, hjava, htools, hplatform, hoptimize, hapi, hscratch, hseconds,
      hdevice, hsuppressed, hvirtual⟩, hbound⟩
  · rintro ⟨⟨handroid, hkotlin, hjava, htools, hplatform, hoptimize, hapi, hscratch, hseconds,
      hdevice, hsuppressed, hvirtual⟩, hbound⟩
    exact ⟨⟨handroid, hkotlin, hjava, htools, hplatform⟩,
      ⟨hoptimize, ⟨hapi, hbound⟩, hscratch, hseconds, hdevice⟩, hsuppressed, hvirtual⟩

/-! ### Fitting documents -/

theorem exists_of_says {write : α → Toml.Value} {default a : α} (h : Says write default place a) :
    ∀ v ∈ place, ∃ a, v = write a := by
  rintro v ⟨⟩
  exact ⟨a, h⟩

theorem exists_of_map {write : α → Toml.Value} {found : Option α} (h : place = found.map write) :
    ∀ v ∈ place, ∃ a, v = write a := by
  rintro v hv
  obtain ⟨a, -, rfl⟩ := Option.map_eq_some_iff.1 (h ▸ hv)
  exact ⟨a, rfl⟩

theorem exists_says {write : α → Toml.Value} (default : α) (h : ∀ v ∈ place, ∃ a, v = write a) :
    ∃ a, Says write default place a := by
  cases place with
  | none => exact ⟨default, rfl⟩
  | some v => exact h v rfl

theorem exists_map {write : α → Toml.Value} (h : ∀ v ∈ place, ∃ a, v = write a) :
    ∃ found : Option α, place = found.map write := by
  cases place with
  | none => exact ⟨none, rfl⟩
  | some v =>
    obtain ⟨a, rfl⟩ := h v rfl
    exact ⟨some a, rfl⟩

/-- A document that fits describes some settings, with an API level that is in range. -/
theorem Fits.exists_describes (h : Fits entries) :
    ∃ s, Describes entries s ∧ s.build.minApi < 4294967296 := by
  have htoolchain := h.fields _ toolchain_mem_schema
  have hbuild := h.fields _ build_mem_schema
  have hfilters := h.fields _ filters_mem_schema
  obtain ⟨android, handroid⟩ :=
    exists_map (htoolchain ("android_home", .text) (by simp [toolchainSchema]))
  obtain ⟨kotlin, hkotlin⟩ :=
    exists_map (htoolchain ("kotlin_home", .text) (by simp [toolchainSchema]))
  obtain ⟨java, hjava⟩ := exists_map (htoolchain ("java_home", .text) (by simp [toolchainSchema]))
  obtain ⟨tools, htools⟩ :=
    exists_map (htoolchain ("build_tools_version", .text) (by simp [toolchainSchema]))
  obtain ⟨platform, hplatform⟩ :=
    exists_map (htoolchain ("platform", .text) (by simp [toolchainSchema]))
  obtain ⟨optimize, hoptimize⟩ :=
    exists_says true (hbuild ("optimize", .boolean) (by simp [buildSchema]))
  have ⟨api, hapi, hbound⟩ : ∃ n, Says (fun n : Nat => .integer n) 21
      (given entries "build" buildSchema "min_api") n ∧ n < 4294967296 := by
    cases hgiven : given entries "build" buildSchema "min_api" with
    | none => exact ⟨21, rfl, by decide⟩
    | some v =>
      obtain ⟨n, hn, hbound⟩ :=
        hbuild ("min_api", .natural (some 4294967296)) (by simp [buildSchema]) v hgiven
      exact ⟨n, hn, hbound _ rfl⟩
  obtain ⟨scratch, hscratch⟩ := exists_map (hbuild ("scratch_dir", .text) (by simp [buildSchema]))
  obtain ⟨seconds, hseconds⟩ := exists_map fun v hv =>
    (hbuild ("timeout_secs", .natural none) (by simp [buildSchema]) v hv).imp fun _ => And.left
  obtain ⟨device, hdevice⟩ :=
    exists_says "/sdcard" (hbuild ("device_dir", .text) (by simp [buildSchema]))
  obtain ⟨suppressed, hsuppressed⟩ := exists_says Listing.Suppression.runtimePackages
    (hfilters ("suppressed_prefixes", .texts) (by simp [filterSchema]))
  obtain ⟨virtual, hvirtual⟩ :=
    exists_says false (hfilters ("include_virtual_methods", .boolean) (by simp [filterSchema]))
  have hpath (found : Option String) :
      (found.map FilePath.mk).map (fun p => Toml.Value.text p.text) = found.map .text :=
    Option.map_map ..
  refine ⟨⟨⟨android.map .mk, kotlin.map .mk, java.map .mk, tools, platform⟩,
    ⟨optimize, api, scratch.map .mk, seconds, device⟩, suppressed, virtual⟩, ?_, hbound⟩
  exact ⟨handroid.trans (hpath _).symm, hkotlin.trans (hpath _).symm, hjava.trans (hpath _).symm,
    htools, hplatform, hoptimize, hapi, hscratch.trans (hpath _).symm, hseconds, hdevice,
    hsuppressed, hvirtual⟩

theorem Describes.holds (h : Describes entries s) (hbound : s.build.minApi < 4294967296) :
    ∀ part ∈ schema, ∀ field ∈ part.2,
      ∀ v ∈ given entries part.1 part.2 field.1, field.2.Holds v := by
  have hpath {name key : String} {fields : Schema} {found : Option FilePath}
      (hfound : given entries name fields key = found.map fun p => .text p.text) :
      ∀ v ∈ given entries name fields key, Kind.text.Holds v := by
    intro v hv
    obtain ⟨p, rfl⟩ := exists_of_map hfound v hv
    exact ⟨p.text, rfl⟩
  have hapi : ∀ v ∈ given entries "build" buildSchema "min_api",
      (Kind.natural (some 4294967296)).Holds v := by
    intro v hv
    have hsays := h.minApi
    rw [hv] at hsays
    refine ⟨s.build.minApi, hsays, ?_⟩
    rintro _ ⟨⟩
    exact hbound
  have hseconds : ∀ v ∈ given entries "build" buildSchema "timeout_secs",
      (Kind.natural none).Holds v := by
    intro v hv
    obtain ⟨n, rfl⟩ := exists_of_map h.timeoutSeconds v hv
    exact ⟨n, rfl, by simp⟩
  intro part hpart field hfield
  simp only [schema, List.mem_cons, List.not_mem_nil, or_false] at hpart
  obtain rfl | rfl | rfl := hpart
  · simp only [toolchainSchema, List.mem_cons, List.not_mem_nil, or_false] at hfield
    obtain rfl | rfl | rfl | rfl | rfl := hfield
    · exact hpath h.androidHome
    · exact hpath h.kotlinHome
    · exact hpath h.javaHome
    · exact exists_of_map h.buildTools
    · exact exists_of_map h.platform
  · simp only [buildSchema, List.mem_cons, List.not_mem_nil, or_false] at hfield
    obtain rfl | rfl | rfl | rfl | rfl := hfield
    · exact exists_of_says h.optimize
    · exact hapi
    · exact hpath h.scratch
    · exact hseconds
    · exact exists_of_says h.deviceDirectory
  · simp only [filterSchema, List.mem_cons, List.not_mem_nil, or_false] at hfield
    obtain rfl | rfl := hfield
    · exact exists_of_says h.suppressed
    · exact exists_of_says h.virtualMethods

theorem Fits.minApi_lt (h : Fits entries) (hs : Describes entries s) :
    s.build.minApi < 4294967296 := by
  have hsays := hs.minApi
  cases hgiven : given entries "build" buildSchema "min_api" with
  | none =>
    rw [hgiven] at hsays
    have hdefault : s.build.minApi = 21 := hsays
    omega
  | some v =>
    rw [hgiven] at hsays
    have hv : v = .integer s.build.minApi := hsays
    obtain ⟨n, hn, hbound⟩ := h.fields _ build_mem_schema
      ("min_api", .natural (some 4294967296)) (by simp [buildSchema]) v hgiven
    have hn : (s.build.minApi : Int) = n := Toml.Value.integer.inj (hv.symm.trans hn)
    have hbound := hbound _ rfl
    omega

/-- A document that is tidy is read with success just if it fits, and what is read is what it
describes. -/
theorem ofTable_eq_ok_iff (h : (Toml.Value.table entries).IsTidy) :
    Settings.ofTable entries = .ok s ↔ Fits entries ∧ Describes entries s := by
  rw [ofTable_eq_ok_iff_describes h]
  constructor
  · rintro ⟨hsections, hs, hbound⟩
    exact ⟨⟨hsections, hs.holds hbound⟩, hs⟩
  · rintro ⟨hfits, hs⟩
    exact ⟨hfits.sections, hs, hfits.minApi_lt hs⟩

theorem exists_ofTable_eq_ok_iff (h : (Toml.Value.table entries).IsTidy) :
    (∃ s, Settings.ofTable entries = .ok s) ↔ Fits entries := by
  constructor
  · rintro ⟨s, hs⟩
    exact ((ofTable_eq_ok_iff h).1 hs).1
  · intro hfits
    obtain ⟨s, hs, -⟩ := hfits.exists_describes
    exact ⟨s, (ofTable_eq_ok_iff h).2 ⟨hfits, hs⟩⟩

end SnippetLens.Config
