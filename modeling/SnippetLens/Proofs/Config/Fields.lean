import Mathlib
import SnippetLens.Config.Load
import SnippetLens.Proofs.Config.Schema
import SnippetLens.Proofs.Files.Entry
import SnippetLens.Proofs.Text.Decoding

/-!
A configuration is read field by field, whatever else the document holds and however it is written.

`Reworded` lists the changes of a document that make no difference: other orders, keys that the
schema does not know, empty sections, and sections written as arrays. Two documents that differ by
one of these are `Alike`, section by section: what they say of a field is the same, or it is in both
a value that no field takes.
-/

namespace SnippetLens.Config

open Files

/-! ### Documents that differ in one place -/

/-- Two values that are related at the end of a path, and the same elsewhere. A path has the keys of
the tables on its way, and nothing for an item of an array. -/
inductive At (R : Toml.Value → Toml.Value → Prop) :
    List (Option String) → Toml.Value → Toml.Value → Prop where
  | here {v v' : Toml.Value} (h : R v v') : At R [] v v'
  | entry {path : List (Option String)} {before after : List (String × Toml.Value)} {key : String}
    {v v' : Toml.Value} (h : At R path v v') :
    At R (some key :: path) (.table (before ++ (key, v) :: after))
      (.table (before ++ (key, v') :: after))
  | item {path : List (Option String)} {before after : List Toml.Value} {v v' : Toml.Value}
    (h : At R path v v') :
    At R (none :: path) (.array (before ++ v :: after)) (.array (before ++ v' :: after))

/-- Two tables with the same entries, perhaps in another order. No key is there twice, which holds
of all tables of a document. -/
inductive Reordered : Toml.Value → Toml.Value → Prop where
  | table {entries entries' : List (String × Toml.Value)} (h : entries.Perm entries')
    (hkeys : (entries.map (·.1)).Nodup) : Reordered (.table entries) (.table entries')

/-- A table, and one that has another entry with a key. -/
inductive Gains (key : String) : Toml.Value → Toml.Value → Prop where
  | table (before after : List (String × Toml.Value)) (v : Toml.Value) :
    Gains key (.table (before ++ after)) (.table (before ++ (key, v) :: after))

def knownPaths : List (List (Option String)) :=
  schema.flatMap fun part =>
    [some part.1] :: part.2.map fun field => [some part.1, some field.1]

/-- A document, and one that says the same to the program. -/
inductive Reworded : List (String × Toml.Value) → List (String × Toml.Value) → Prop where
  /-- Sections or keys stand in another order. -/
  | order {entries entries' : List (String × Toml.Value)} {path : List (Option String)}
    (h : At Reordered path (.table entries) (.table entries')) : Reworded entries entries'
  /-- There is another entry, which is no section and no field. -/
  | unknown {entries entries' : List (String × Toml.Value)} {path : List (Option String)}
    {key : String} (hpath : path ++ [some key] ∉ knownPaths)
    (h : At (Gains key) path (.table entries) (.table entries')) : Reworded entries entries'
  /-- A section that was not there is empty. -/
  | emptySection {before after : List (String × Toml.Value)} {name : String}
    (hname : name ∉ (before ++ after).map (·.1)) :
    Reworded (before ++ after) (before ++ (name, .table []) :: after)
  /-- The items of an array stand under the keys of the fields. -/
  | array {before after : List (String × Toml.Value)} {part : String × Schema}
    (hpart : part ∈ schema) (items : List Toml.Value) :
    Reworded (before ++ (part.1, .array items) :: after)
      (before ++ (part.1, .table ((part.2.map (·.1)).zip items)) :: after)

/-! ### Documents that say the same -/

/-- What stands in two places is the same, or it is in both a value that no field takes. -/
def AlikeField (place place' : Option Toml.Value) : Prop :=
  place = place' ∨
    (∃ v ∈ place, ∀ kind : Kind, ¬kind.Holds v) ∧ ∃ v ∈ place', ∀ kind : Kind, ¬kind.Holds v

/-- Two sections, each of which may be missing, are alike in all fields. -/
structure AlikeSection (fields : Schema) (place place' : Option Toml.Value) : Prop where
  sections : (∀ v ∈ place, IsSection v) ↔ ∀ v ∈ place', IsSection v
  fields : ∀ key ∈ fields.map (·.1),
    AlikeField (place.bind fun v => (contents fields v).lookup key)
      (place'.bind fun v => (contents fields v).lookup key)

def Alike (entries entries' : List (String × Toml.Value)) : Prop :=
  ∀ part ∈ schema, AlikeSection part.2 (entries.lookup part.1) (entries'.lookup part.1)

variable {R : Toml.Value → Toml.Value → Prop} {path : List (Option String)} {fields : Schema}
  {v v' : Toml.Value} {place place' : Option Toml.Value}
  {entries entries' : List (String × Toml.Value)}

theorem AlikeSection.refl (fields : Schema) (place : Option Toml.Value) :
    AlikeSection fields place place :=
  ⟨Iff.rfl, fun _ _ => .inl rfl⟩

theorem AlikeSection.of_eq (h : place = place') : AlikeSection fields place place' :=
  h ▸ .refl fields place

theorem AlikeSection.symm (h : AlikeSection fields place place') :
    AlikeSection fields place' place where
  sections := h.sections.symm
  fields key hkey := by
    obtain heq | ⟨hv, hv'⟩ := h.fields key hkey
    · exact .inl heq.symm
    · exact .inr ⟨hv', hv⟩

theorem AlikeField.trans {first second third : Option Toml.Value} (h : AlikeField first second)
    (h' : AlikeField second third) : AlikeField first third := by
  obtain rfl | ⟨hfirst, hsecond⟩ := h
  · exact h'
  · obtain rfl | ⟨-, hthird⟩ := h'
    · exact .inr ⟨hfirst, hsecond⟩
    · exact .inr ⟨hfirst, hthird⟩

theorem Alike.refl (entries : List (String × Toml.Value)) : Alike entries entries :=
  fun part _ => .refl part.2 _

theorem Alike.symm (h : Alike entries entries') : Alike entries' entries :=
  fun part hpart => (h part hpart).symm

theorem Alike.trans {entries'' : List (String × Toml.Value)} (h : Alike entries entries')
    (h' : Alike entries' entries'') : Alike entries entries'' := fun part hpart =>
  ⟨(h part hpart).sections.trans (h' part hpart).sections, fun key hkey =>
    ((h part hpart).fields key hkey).trans ((h' part hpart).fields key hkey)⟩

theorem AlikeSection.of_contents (hv : IsSection v) (hv' : IsSection v')
    (h : ∀ key ∈ fields.map (·.1),
      AlikeField ((contents fields v).lookup key) ((contents fields v').lookup key)) :
    AlikeSection fields (some v) (some v') :=
  ⟨by simp [hv, hv'], h⟩

/-- A document that fits says the same of its fields as one that is like it. -/
theorem Alike.given_eq (h : Alike entries entries') (hfits : Fits entries) {part : String × Schema}
    (hpart : part ∈ schema) {key : String} (hkey : key ∈ part.2.map (·.1)) :
    given entries part.1 part.2 key = given entries' part.1 part.2 key := by
  obtain ⟨field, hfield, rfl⟩ := List.mem_map.1 hkey
  obtain heq | ⟨⟨v, hv, hnone⟩, -⟩ := (h part hpart).fields field.1 hkey
  · exact heq
  · exact absurd (hfits.fields part hpart field hfield v hv) (hnone field.2)

theorem Alike.readsAll_iff {σ : Type} {sets : List (Field σ)} {before after : σ}
    (h : Alike entries entries') (hfits : Fits entries) {part : String × Schema}
    (hpart : part ∈ schema) (hkeys : sets.map (·.key) = part.2.map (·.1)) :
    ReadsAll (given entries part.1 part.2) sets before after ↔
      ReadsAll (given entries' part.1 part.2) sets before after :=
  readsAll_congr fun _ hf => h.given_eq hfits hpart (hkeys ▸ List.mem_map_of_mem hf)

theorem Alike.ofTable_eq_ok (h : Alike entries entries') (htidy : (Toml.Value.table entries).IsTidy)
    (htidy' : (Toml.Value.table entries').IsTidy) {s : Settings}
    (hs : Settings.ofTable entries = .ok s) : Settings.ofTable entries' = .ok s := by
  -- Where the first document fits, no place of it holds a value that no field takes.
  obtain ⟨hfits, -⟩ := (ofTable_eq_ok_iff htidy).1 hs
  obtain ⟨hsections, htoolchain, hbuild, hfilters⟩ := (ofTable_eq_ok_iff_readsAll htidy).1 hs
  refine (ofTable_eq_ok_iff_readsAll htidy').2 ⟨fun part hpart => ?_, ?_, ?_, ?_⟩
  · exact (h part hpart).sections.1 (hsections part hpart)
  · exact (h.readsAll_iff hfits toolchain_mem_schema rfl).1 htoolchain
  · exact (h.readsAll_iff hfits build_mem_schema rfl).1 hbuild
  · exact (h.readsAll_iff hfits filters_mem_schema rfl).1 hfilters

theorem toOption_eq_some_iff {ε α : Type} {x : Except ε α} {a : α} :
    x.toOption = some a ↔ x = .ok a := by
  cases x <;> simp [Except.toOption]

theorem Alike.ofTable_eq_ok_iff (h : Alike entries entries')
    (htidy : (Toml.Value.table entries).IsTidy) (htidy' : (Toml.Value.table entries').IsTidy)
    {s : Settings} : Settings.ofTable entries = .ok s ↔ Settings.ofTable entries' = .ok s :=
  ⟨h.ofTable_eq_ok htidy htidy', h.symm.ofTable_eq_ok htidy' htidy⟩

/-! ### Changes that make no difference -/

theorem Kind.not_holds_table (kind : Kind) (entries : List (String × Toml.Value)) :
    ¬kind.Holds (.table entries) := by
  cases kind <;> simp [Kind.Holds]

theorem At.not_holds (hR : ∀ {v v'}, R v v' → ∃ entries, v = .table entries) (h : At R path v v')
    (kind : Kind) : ¬kind.Holds v := by
  cases h
  case here h =>
    obtain ⟨entries, rfl⟩ := hR h
    exact kind.not_holds_table entries
  case entry => exact kind.not_holds_table _
  case item path before after v v' h =>
    cases kind
    case texts =>
      rintro ⟨l, hl⟩
      have hv : v ∈ l.map Toml.Value.text := Toml.Value.array.inj hl ▸ by simp
      obtain ⟨s, -, rfl⟩ := List.mem_map.1 hv
      -- A text has no tables inside.
      cases h with
      | here h =>
        obtain ⟨entries, hentries⟩ := hR h
        cases hentries
    all_goals simp [Kind.Holds]

theorem At.swap (h : At R path v v') : At (fun v v' => R v' v) path v' v := by
  induction h with
  | here h => exact .here h
  | entry _ ih => exact .entry ih
  | item _ ih => exact .item ih

/-- Sections that differ only inside what stands under a key are alike. -/
theorem At.alikeSection (hR : ∀ {v v'}, R v v' → ∃ entries, v = .table entries)
    (hR' : ∀ {v v'}, R v v' → ∃ entries, v' = .table entries) (h : At R path v v')
    (hpath : path ≠ []) : AlikeSection fields (some v) (some v') := by
  cases h
  case here => exact absurd rfl hpath
  case entry path before after key v v' h =>
    refine .of_contents (.table _) (.table _) fun key' _ => ?_
    obtain heq | ⟨-, hv, hv'⟩ := lookup_append_cons before after key key' v v'
    · exact .inl heq
    · exact .inr ⟨⟨v, hv, h.not_holds hR⟩, v', hv', h.swap.not_holds hR'⟩
  case item path before after v v' h =>
    refine .of_contents (.array _) (.array _) fun key _ => ?_
    obtain heq | ⟨hv, hv'⟩ := lookup_zip_append_cons (fields.map (·.1)) before after key v v'
    · exact .inl heq
    · exact .inr ⟨⟨v, hv, h.not_holds hR⟩, v', hv', h.swap.not_holds hR'⟩

/-- Documents that differ at a place are alike if the sections are that end there. -/
theorem At.alike (hR : ∀ {v v'}, R v v' → ∃ entries, v = .table entries)
    (hR' : ∀ {v v'}, R v v' → ∃ entries, v' = .table entries)
    (h : At R path (.table entries) (.table entries'))
    (hroot : path = [] → R (.table entries) (.table entries') → Alike entries entries')
    (hsection : ∀ part ∈ schema, path = [some part.1] → ∀ v v', R v v' →
      AlikeSection part.2 (some v) (some v')) : Alike entries entries' := by
  cases h
  case here h => exact hroot rfl h
  case entry path before after key v v' h =>
    intro part hpart
    obtain heq | ⟨rfl, hv, hv'⟩ := lookup_append_cons before after key part.1 v v'
    · exact .of_eq heq
    · rw [hv, hv']
      by_cases hpath : path = []
      · subst hpath
        cases h with
        | here h => exact hsection part hpart rfl v v' h
      · exact h.alikeSection hR hR' hpath

theorem Reordered.alikeSection (h : Reordered v v') : AlikeSection fields (some v) (some v') := by
  obtain ⟨h, hkeys⟩ := h
  exact .of_contents (.table _) (.table _) fun key _ => .inl (lookup_eq_of_perm h hkeys)

theorem Gains.alikeSection {key : String} (h : Gains key v v') (hkey : key ∉ fields.map (·.1)) :
    AlikeSection fields (some v) (some v') := by
  obtain ⟨before, after, v⟩ := h
  refine .of_contents (.table _) (.table _) fun key' hkey' => .inl ?_
  refine (lookup_append_cons_of_ne ?_).symm
  rintro rfl
  exact hkey hkey'

theorem section_mem_knownPaths {part : String × Schema} (hpart : part ∈ schema) :
    [some part.1] ∈ knownPaths :=
  List.mem_flatMap.2 ⟨part, hpart, List.mem_cons_self⟩

theorem field_mem_knownPaths {part : String × Schema} (hpart : part ∈ schema) {key : String}
    (hkey : key ∈ part.2.map (·.1)) : [some part.1, some key] ∈ knownPaths := by
  obtain ⟨field, hfield, rfl⟩ := List.mem_map.1 hkey
  refine List.mem_flatMap.2 ⟨part, hpart, List.mem_cons_of_mem _ ?_⟩
  exact List.mem_map.2 ⟨field, hfield, rfl⟩

theorem Reworded.alike (h : Reworded entries entries') : Alike entries entries' := by
  cases h with
  | order h =>
    refine h.alike (fun ⟨_, _⟩ => ⟨_, rfl⟩) (fun ⟨_, _⟩ => ⟨_, rfl⟩) ?_ ?_
    · rintro - ⟨h, hkeys⟩ part -
      exact .of_eq (lookup_eq_of_perm h hkeys)
    · exact fun part _ _ v v' h => h.alikeSection
  | @unknown _ _ path key hpath h =>
    refine h.alike (fun ⟨_, _, _⟩ => ⟨_, rfl⟩) (fun ⟨_, _, _⟩ => ⟨_, rfl⟩) ?_ ?_
    · rintro rfl ⟨before, after, v⟩ part hpart
      refine .of_eq (lookup_append_cons_of_ne ?_).symm
      rintro rfl
      exact hpath (section_mem_knownPaths hpart)
    · rintro part hpart rfl v v' h
      exact h.alikeSection fun hkey => hpath (field_mem_knownPaths hpart hkey)
  | @emptySection before after name hname =>
    intro part hpart
    by_cases hpart : part.1 = name
    · subst hpart
      have hbefore : part.1 ∉ before.map (·.1) := fun h =>
        hname (List.map_append ▸ List.mem_append_left _ h)
      rw [lookup_eq_none hname, lookup_append_cons_self hbefore]
      exact ⟨by simp [IsSection.table], fun _ _ => .inl rfl⟩
    · exact .of_eq (lookup_append_cons_of_ne hpart).symm
  | @array before after part hpart items =>
    intro part' hpart'
    obtain heq | ⟨hname, hv, hv'⟩ := lookup_append_cons before after part.1 part'.1 (.array items)
      (.table ((part.2.map (·.1)).zip items))
    · exact .of_eq heq
    · have hnames : (schema.map (·.1)).Nodup := by decide
      obtain rfl := List.inj_on_of_nodup_map hnames hpart' hpart hname
      rw [hv, hv']
      exact .of_contents (.array _) (.table _) fun _ _ => .inl rfl

/-- Any number of such changes, made or taken back, leave a document that says the same. -/
theorem alike_of_eqvGen (h : Relation.EqvGen Reworded entries entries') :
    Alike entries entries' := by
  induction h with
  | rel _ _ h => exact h.alike
  | refl entries => exact .refl entries
  | symm _ _ _ ih => exact ih.symm
  | trans _ _ _ _ _ ih ih' => exact ih.trans ih'

/-! ### Files -/

theorem ofFile_eq_ok_iff {files : FileTree} {p : FilePath} {document : String}
    (hfile : files.readText p = .ok document) (hparse : Toml.parse? document = some entries)
    {s : Settings} :
    Settings.ofFile files p = .ok s ↔ Settings.ofTable entries = .ok s := by
  simp only [Settings.ofFile, hfile, Settings.ofText, hparse]
  cases Settings.ofTable entries <;> simp [Except.mapError]

/-- A configuration is read with success just if what stands for a section can be one and every
field in it holds a value of its kind. Each setting is then what the document says, or its default.
The result is the same for a document that is reworded. -/
theorem ofFile_reads_fields {files : FileTree} {p : FilePath} {document : String}
    (hfile : files.readText p = .ok document) (hparse : Toml.parse? document = some entries) :
    ((∃ s, Settings.ofFile files p = .ok s) ↔ Fits entries) ∧
    (∀ s, Settings.ofFile files p = .ok s → Describes entries s) ∧
    ∀ (files' : FileTree) (p' : FilePath) (document' : String)
      (entries' : List (String × Toml.Value)), files'.readText p' = .ok document' →
      Toml.parse? document' = some entries' → Relation.EqvGen Reworded entries entries' →
      (Settings.ofFile files' p').toOption = (Settings.ofFile files p).toOption := by
  have htidy := Toml.isTidy_of_parse? hparse
  have hread (s : Settings) := ofFile_eq_ok_iff hfile hparse (s := s)
  refine ⟨?_, fun s hs => ?_, fun files' p' document' entries' hfile' hparse' hreworded => ?_⟩
  · rw [← exists_ofTable_eq_ok_iff htidy]
    exact exists_congr hread
  · exact ((ofTable_eq_ok_iff htidy).1 ((hread s).1 hs)).2
  · have halike := alike_of_eqvGen hreworded
    refine Option.ext fun s => ?_
    rw [toOption_eq_some_iff, toOption_eq_some_iff, ofFile_eq_ok_iff hfile' hparse', hread s,
      halike.ofTable_eq_ok_iff htidy (Toml.isTidy_of_parse? hparse')]

/-! ### Two documents

The second has the section of the first as an array, and another key before it. -/

def oneFile (document : String) : FileTree :=
  ⟨[(["c"], .file (document.toList.flatMap String.utf8EncodeChar) false)], []⟩

theorem readText_oneFile (document : String) :
    (oneFile document).readText ⟨"/c"⟩ = .ok document := by
  have hsteps : (⟨"/c"⟩ : FilePath).steps = ["c"] := by decide
  have hname : ¬FileTree.maxName < "c".utf8ByteSize := by decide
  have hfind : (oneFile document).find? ["c"] =
      some (.file (document.toList.flatMap String.utf8EncodeChar) false) := rfl
  have hlocate : (oneFile document).locate ⟨"/c"⟩ = .ok ["c"] := by
    rw [FileTree.locate_of_isAbsolute _ (by decide) (by decide) (by decide), hsteps]
    simp [FileTree.walk, hname, hfind]
  refine FileTree.readText_of_status (FileTree.status_of_locate hlocate hfind) ?_
  rw [Text.Utf8.strict?_flatMap_utf8EncodeChar, String.ofList_toList]

def sectionDocument : String := "[build]\nmin_api = 26\noptimize = false\n"

def sectionEntries : List (String × Toml.Value) :=
  [("build", .table [("min_api", .integer 26), ("optimize", .boolean false)])]

theorem parse?_sectionDocument : Toml.parse? sectionDocument = some sectionEntries := by
  cbv

def arrayDocument : String := "x = 1\nbuild = [false, 26]\n"

def arrayEntries : List (String × Toml.Value) :=
  [("x", .integer 1), ("build", .array [.boolean false, .integer 26])]

theorem parse?_arrayDocument : Toml.parse? arrayDocument = some arrayEntries := by
  cbv

/-- The keys change places, the array stands for the table, and the other key is put before it. -/
theorem eqvGen_reworded_sectionEntries : Relation.EqvGen Reworded sectionEntries arrayEntries := by
  have horder : Reworded sectionEntries
      [("build", .table [("optimize", .boolean false), ("min_api", .integer 26)])] :=
    .order (@At.entry _ _ [] [] _ _ _ (.here (.table (.swap ..) (by decide))))
  have harray : Reworded [("build", .array [.boolean false, .integer 26])]
      [("build", .table [("optimize", .boolean false), ("min_api", .integer 26)])] :=
    @Reworded.array [] [] _ build_mem_schema _
  have hother : Reworded [("build", .array [.boolean false, .integer 26])] arrayEntries :=
    @Reworded.unknown _ _ [] "x" (by decide) (.here (.table [] _ _))
  refine .trans _ _ _ (.rel _ _ horder) (.trans _ _ _ (.symm _ _ ?_) (.rel _ _ hother))
  exact .rel _ _ harray

theorem ofFile_reads_fields_sectionDocument :
    let s : Settings := { build := { optimize := false, minApi := 26 } }
    Fits sectionEntries ∧ Describes sectionEntries s ∧
      Settings.ofFile (oneFile sectionDocument) ⟨"/c"⟩ = .ok s ∧
      (Settings.ofFile (oneFile arrayDocument) ⟨"/c"⟩).toOption = some s := by
  intro s
  obtain ⟨hfits, hdescribes, hreworded⟩ :=
    ofFile_reads_fields (readText_oneFile sectionDocument) parse?_sectionDocument
  have hread : Settings.ofFile (oneFile sectionDocument) ⟨"/c"⟩ = .ok s :=
    (ofFile_eq_ok_iff (readText_oneFile sectionDocument) parse?_sectionDocument).2 rfl
  refine ⟨hfits.1 ⟨s, hread⟩, hdescribes s hread, hread, ?_⟩
  rw [hreworded _ _ _ _ (readText_oneFile arrayDocument) parse?_arrayDocument
    eqvGen_reworded_sectionEntries, hread]
  rfl

/-! ### A date for a section -/

def momentDocument : String := "build = 1979-05-27\n"

def momentEntries : List (String × Toml.Value) := [("build", .moment)]

theorem parse?_momentDocument : Toml.parse? momentDocument = some momentEntries := by
  cbv

/-- A document can be read although a section is neither a table nor an array. -/
theorem ofFile_momentDocument :
    ¬((∃ s, Settings.ofFile (oneFile momentDocument) ⟨"/c"⟩ = .ok s) ↔
      Fits momentEntries ∧ ∀ part ∈ schema, ∀ v ∈ momentEntries.lookup part.1,
        (∃ entries, v = .table entries) ∨ ∃ items, v = .array items) := by
  intro h
  have hread : Settings.ofFile (oneFile momentDocument) ⟨"/c"⟩ = .ok {} :=
    (ofFile_eq_ok_iff (readText_oneFile momentDocument) parse?_momentDocument).2 rfl
  obtain ⟨-, hsections⟩ := h.1 ⟨_, hread⟩
  have hmoment := hsections _ build_mem_schema .moment rfl
  simp at hmoment

end SnippetLens.Config
