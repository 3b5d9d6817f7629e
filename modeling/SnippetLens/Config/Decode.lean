import SnippetLens.Config.Settings
import SnippetLens.Config.Toml.Value
import SnippetLens.Text.Escape

/-!
Reading the configuration out of a TOML value.

A section is a list of fields, each with its key and what its value sets. A table sets the fields
whose keys it has, in the order of the document, and an array sets the fields in their order, as
many as it has items. Whatever is not set keeps its default, and other keys are ignored.
-/

namespace SnippetLens.Config

open Files

inductive Mismatch where
  /-- The value is of another type. -/
  | type (found : Toml.Value) (expected : String)
  /-- The integer is out of range. -/
  | range (found : Int) (expected : String)
  deriving Repr

def describe : Toml.Value → String
  | .text s => "string " ++ Text.quoted s
  | .integer n => "integer `" ++ toString n ++ "`"
  | .float x => "floating point `" ++ x.text ++ "`"
  | .boolean b => "boolean `" ++ (if b then "true" else "false") ++ "`"
  | .array _ => "sequence"
  | .moment | .table _ => "map"

def Mismatch.message : Mismatch → String
  | .type found expected => "invalid type: " ++ describe found ++ ", expected " ++ expected
  | .range found expected =>
    "invalid value: integer `" ++ toString found ++ "`, expected " ++ expected

/-! ### Values -/

def decodeText (expected : String) : Toml.Value → Except Mismatch String
  | .text s => .ok s
  | v => .error (.type v expected)

def decodePath (v : Toml.Value) : Except Mismatch FilePath := do
  return ⟨← decodeText "path string" v⟩

def decodeBoolean : Toml.Value → Except Mismatch Bool
  | .boolean b => .ok b
  | v => .error (.type v "a boolean")

/-- A natural number below a bound. -/
def decodeNatural (bound : Nat) (expected : String) : Toml.Value → Except Mismatch Nat
  | .integer n => if 0 ≤ n && n < bound then .ok n.toNat else .error (.range n expected)
  | v => .error (.type v expected)

def decodeTexts : Toml.Value → Except Mismatch (List String)
  | .array items => items.mapM (decodeText "a string")
  | v => .error (.type v "a sequence")

/-! ### Sections -/

structure Field (σ : Type) where
  key : String
  set : Toml.Value → σ → Except Mismatch σ

def Field.of {σ α : Type} (key : String) (decode : Toml.Value → Except Mismatch α)
    (put : α → σ → σ) : Field σ where
  key := key
  set v s := do return put (← decode v) s

def decodeTable {σ : Type} (fields : List (Field σ)) (initial : σ)
    (entries : List (String × Toml.Value)) : Except Mismatch σ :=
  entries.foldlM (fun s entry =>
    match fields.find? fun field => field.key = entry.1 with
    | some field => field.set entry.2 s
    | none => .ok s) initial

def decodeArray {σ : Type} (fields : List (Field σ)) (initial : σ) (items : List Toml.Value) :
    Except Mismatch σ :=
  (fields.zip items).foldlM (fun s entry => entry.1.set entry.2 s) initial

/-- A section. A date or a time is taken for a table without any of the keys. -/
def decodeSection {σ : Type} (expected : String) (fields : List (Field σ)) (initial : σ) :
    Toml.Value → Except Mismatch σ
  | .table entries => decodeTable fields initial entries
  | .array items => decodeArray fields initial items
  | .moment => .ok initial
  | v => .error (.type v expected)

def toolchainFields : List (Field Toolchain.Hints) :=
  [.of "android_home" decodePath fun p s => { s with androidHome := some p },
    .of "kotlin_home" decodePath fun p s => { s with kotlinHome := some p },
    .of "java_home" decodePath fun p s => { s with javaHome := some p },
    .of "build_tools_version" (decodeText "a string") fun v s => { s with buildTools := some v },
    .of "platform" (decodeText "a string") fun v s => { s with platform := some v }]

def buildFields : List (Field BuildSettings) :=
  [.of "optimize" decodeBoolean fun b s => { s with optimize := b },
    .of "min_api" (decodeNatural UInt32.size "u32") fun n s => { s with minApi := n },
    .of "scratch_dir" decodePath fun p s => { s with scratch := some p },
    .of "timeout_secs" (decodeNatural UInt64.size "u64")
      fun n s => { s with timeoutSeconds := some n },
    .of "device_dir" (decodeText "a string") fun d s => { s with deviceDirectory := d }]

def filterFields : List (Field FilterSettings) :=
  [.of "suppressed_prefixes" decodeTexts fun l s => { s with suppressed := l },
    .of "include_virtual_methods" decodeBoolean fun b s => { s with virtualMethods := b }]

def sections : List (Field Settings) :=
  [.of "toolchain" (decodeSection "struct ToolchainConfig" toolchainFields {})
      fun t s => { s with toolchain := t },
    .of "build" (decodeSection "struct BuildConfig" buildFields {})
      fun b s => { s with build := b },
    .of "filters" (decodeSection "struct FiltersConfig" filterFields {})
      fun f s => { s with filters := f }]

def Settings.ofTable (entries : List (String × Toml.Value)) : Except Mismatch Settings :=
  decodeTable sections {} entries

end SnippetLens.Config
