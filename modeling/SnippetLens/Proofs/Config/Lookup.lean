import SnippetLens.Config.Decode

/-!
Reading fields by key.

A table is read entry by entry, in the order of the document, and an array item by item. Both come
to the same as reading field by field, each from what stands at its place: under its key in the
table, or in the array at its own position. In the table that needs that no key stands there twice
and that two fields can be set in either order.
-/

namespace SnippetLens.Config

variable {σ α β : Type}

theorem bind_eq_ok_iff {ε : Type} {x : Except ε α} {f : α → Except ε β} {b : β} :
    (x >>= f) = .ok b ↔ ∃ a, x = .ok a ∧ f a = .ok b := by
  cases x with
  | error e =>
    constructor
    · rintro ⟨⟩
    · rintro ⟨_, ⟨⟩, _⟩
  | ok a =>
    constructor
    · exact fun h => ⟨a, rfl, h⟩
    · rintro ⟨_, ⟨⟩, h⟩
      exact h

/-! ### Looking up a key -/

section Lookup

variable {before after entries entries' : List (String × α)} {key key' : String}
  {v v' : α}

theorem lookup_eq_none (h : key ∉ entries.map (·.1)) : entries.lookup key = none := by
  refine List.lookup_eq_none_iff.2 fun e he => bne_iff_ne.2 ?_
  rintro rfl
  exact h (List.mem_map.2 ⟨e, he, rfl⟩)

theorem lookup_append_cons_of_ne (h : key' ≠ key) :
    (before ++ (key, v) :: after).lookup key' = (before ++ after).lookup key' := by
  rw [List.lookup_append, List.lookup_append, List.lookup_cons, beq_false_of_ne h]

theorem lookup_append_cons_self (h : key ∉ before.map (·.1)) :
    (before ++ (key, v) :: after).lookup key = some v := by
  rw [List.lookup_append, lookup_eq_none h, List.lookup_cons, beq_self_eq_true]
  rfl

/-- An entry that takes the place of another with its key is not found, or in its stead. -/
theorem lookup_append_cons (before after : List (String × α)) (key key' : String) (v v' : α) :
    (before ++ (key, v) :: after).lookup key' = (before ++ (key, v') :: after).lookup key' ∨
      key' = key ∧ (before ++ (key, v) :: after).lookup key' = some v ∧
        (before ++ (key, v') :: after).lookup key' = some v' := by
  by_cases hkey : key' = key
  · subst hkey
    simp only [List.lookup_append, List.lookup_cons, beq_self_eq_true]
    cases before.lookup key' with
    | none => exact .inr ⟨trivial, rfl, rfl⟩
    | some w => exact .inl rfl
  · exact .inl ((lookup_append_cons_of_ne hkey).trans (lookup_append_cons_of_ne hkey).symm)

theorem lookup_eq_some_iff_mem (h : (entries.map (·.1)).Nodup) :
    entries.lookup key = some v ↔ (key, v) ∈ entries := by
  constructor
  · intro hv
    obtain ⟨before, after, rfl, -⟩ := List.lookup_eq_some_iff.1 hv
    simp
  · intro hv
    obtain ⟨before, after, rfl⟩ := List.append_of_mem hv
    have hbefore : key ∉ before.map (·.1) := by
      simp only [List.map_append, List.map_cons, List.nodup_append] at h
      exact fun hkey => h.2.2 key hkey key (by simp) rfl
    exact lookup_append_cons_self hbefore

theorem lookup_eq_of_perm (h : entries.Perm entries') (hkeys : (entries.map (·.1)).Nodup) :
    entries.lookup key = entries'.lookup key := by
  refine Option.ext fun v => ?_
  rw [lookup_eq_some_iff_mem hkeys, lookup_eq_some_iff_mem ((h.map _).nodup_iff.1 hkeys), h.mem_iff]

/-- The same for an item of an array, which stands under one of the keys or under none. -/
theorem lookup_zip_append_cons (keys : List String) (before after : List α) (key : String)
    (v v' : α) :
    (keys.zip (before ++ v :: after)).lookup key = (keys.zip (before ++ v' :: after)).lookup key ∨
      (keys.zip (before ++ v :: after)).lookup key = some v ∧
        (keys.zip (before ++ v' :: after)).lookup key = some v' := by
  induction keys generalizing before with
  | nil => exact .inl rfl
  | cons first keys ih =>
    cases before with
    | nil =>
      simp only [List.nil_append, List.zip_cons_cons, List.lookup_cons]
      split
      · exact .inr ⟨rfl, rfl⟩
      · exact .inl rfl
    | cons w before =>
      simp only [List.cons_append, List.zip_cons_cons, List.lookup_cons]
      split
      · exact .inl rfl
      · exact ih before

end Lookup

/-! ### One field -/

namespace Field

theorem set_of_eq_ok_iff {key : String} {decode : Toml.Value → Except Mismatch α}
    {put : α → σ → σ} {v : Toml.Value} {s s' : σ} :
    (Field.of key decode put).set v s = .ok s' ↔ ∃ a, decode v = .ok a ∧ put a s = s' := by
  refine bind_eq_ok_iff.trans (exists_congr fun a => and_congr_right fun _ => ?_)
  exact Except.ok.injEq .. |>.to_iff

/-- Two fields can be set in either order. -/
def Commutes (f g : Field σ) : Prop :=
  ∀ (v w : Toml.Value) (s s' : σ),
    (∃ next, f.set v s = .ok next ∧ g.set w next = .ok s') ↔
      ∃ next, g.set w s = .ok next ∧ f.set v next = .ok s'

theorem commutes_of {key key' : String} {decode : Toml.Value → Except Mismatch α}
    {decode' : Toml.Value → Except Mismatch β} {put : α → σ → σ} {put' : β → σ → σ}
    (h : ∀ a b s, put' b (put a s) = put a (put' b s)) :
    (Field.of key decode put).Commutes (Field.of key' decode' put') := by
  intro v w s s'
  simp only [set_of_eq_ok_iff]
  constructor
  · rintro ⟨_, ⟨a, ha, rfl⟩, b, hb, rfl⟩
    exact ⟨_, ⟨b, hb, rfl⟩, a, ha, (h a b s).symm⟩
  · rintro ⟨_, ⟨b, hb, rfl⟩, a, ha, rfl⟩
    exact ⟨_, ⟨a, ha, rfl⟩, b, hb, h a b s⟩

/-- The section before and after a field is read from what stands at its place, if anything. -/
def Reads (f : Field σ) (place : Option Toml.Value) (s s' : σ) : Prop :=
  match place with
  | none => s' = s
  | some v => f.set v s = .ok s'

theorem Commutes.reads {f g : Field σ} (h : f.Commutes g) (place : Option Toml.Value)
    (w : Toml.Value) (s s' : σ) :
    (∃ next, f.Reads place s next ∧ g.set w next = .ok s') ↔
      ∃ next, g.set w s = .ok next ∧ f.Reads place next s' := by
  cases place with
  | some v => exact h v w s s'
  | none =>
    constructor
    · rintro ⟨_, rfl, hg⟩
      exact ⟨s', hg, rfl⟩
    · rintro ⟨_, hg, rfl⟩
      exact ⟨s, rfl, hg⟩

end Field

/-! ### All fields of a section -/

/-- The section before and after its fields are read in their order, each from its own place. -/
def ReadsAll (place : String → Option Toml.Value) : List (Field σ) → σ → σ → Prop
  | [], s, s' => s' = s
  | f :: fields, s, s' => ∃ next, f.Reads (place f.key) s next ∧ ReadsAll place fields next s'

/-- No two fields have the same key, and any two can be set in either order. -/
structure Independent (fields : List (Field σ)) : Prop where
  keys : (fields.map (·.key)).Nodup
  commutes : fields.Pairwise Field.Commutes

variable {fields : List (Field σ)} {field : Field σ} {place place' : String → Option Toml.Value}
  {v : Toml.Value} {s s' : σ}

theorem Independent.tail (h : Independent (field :: fields)) : Independent fields :=
  ⟨(List.nodup_cons.1 h.keys).2, (List.pairwise_cons.1 h.commutes).2⟩

theorem key_ne_of_mem (h : ((field :: fields).map (·.key)).Nodup) {f : Field σ} (hf : f ∈ fields) :
    f.key ≠ field.key := fun heq =>
  (List.nodup_cons.1 h).1 (List.mem_map.2 ⟨f, hf, heq⟩)

theorem readsAll_congr (h : ∀ f ∈ fields, place f.key = place' f.key) :
    ReadsAll place fields s s' ↔ ReadsAll place' fields s s' := by
  induction fields generalizing s with
  | nil => exact Iff.rfl
  | cons f fields ih =>
    rw [ReadsAll, ReadsAll, h f (by simp)]
    exact exists_congr fun next => and_congr_right fun _ =>
      ih fun f hf => h f (List.mem_cons_of_mem _ hf)

theorem readsAll_of_none (h : ∀ f ∈ fields, place f.key = none) :
    ReadsAll place fields s s' ↔ s' = s := by
  induction fields with
  | nil => exact Iff.rfl
  | cons f fields ih =>
    simp only [ReadsAll, h f (by simp), Field.Reads, exists_eq_left]
    exact ih fun f hf => h f (List.mem_cons_of_mem _ hf)

/-- A field that something is put in place of nothing for can be read before the others. -/
theorem readsAll_of_put (h : Independent fields) (hfield : field ∈ fields)
    (hnone : place field.key = none) (hsome : place' field.key = some v)
    (hother : ∀ key, key ≠ field.key → place' key = place key) :
    ReadsAll place' fields s s' ↔
      ∃ next, field.set v s = .ok next ∧ ReadsAll place fields next s' := by
  induction fields generalizing s with
  | nil => cases hfield
  | cons f fields ih =>
    obtain rfl | hfield := List.mem_cons.1 hfield
    · have hrest (next : σ) : ReadsAll place' fields next s' ↔ ReadsAll place fields next s' :=
        readsAll_congr fun g hg => hother g.key (key_ne_of_mem h.keys hg)
      simp only [ReadsAll, hnone, hsome, Field.Reads, hrest, exists_eq_left]
    · -- The field comes after `f`, and is carried past it.
      have hplace : place' f.key = place f.key :=
        hother f.key (key_ne_of_mem h.keys hfield).symm
      have hswap := ((List.pairwise_cons.1 h.commutes).1 field hfield).reads (place f.key) v s
      simp only [ReadsAll, hplace, ih h.tail hfield]
      constructor
      · rintro ⟨next, hf, last, hlast, hall⟩
        obtain ⟨next, hnext, hf⟩ := (hswap last).1 ⟨next, hf, hlast⟩
        exact ⟨next, hnext, last, hf, hall⟩
      · rintro ⟨next, hnext, last, hf, hall⟩
        obtain ⟨next, hf, hlast⟩ := (hswap last).2 ⟨next, hnext, hf⟩
        exact ⟨next, hf, last, hlast, hall⟩

theorem decodeTable_cons {e : String × Toml.Value} {rest : List (String × Toml.Value)} :
    decodeTable fields s (e :: rest) =
      (match fields.find? fun field => field.key = e.1 with
        | some field => field.set e.2 s
        | none => .ok s) >>= fun next => decodeTable fields next rest :=
  List.foldlM_cons ..

theorem decodeTable_eq_ok_iff (h : Independent fields) {entries : List (String × Toml.Value)}
    (hkeys : (entries.map (·.1)).Nodup) :
    decodeTable fields s entries = .ok s' ↔ ReadsAll (entries.lookup ·) fields s s' := by
  induction entries generalizing s with
  | nil =>
    rw [readsAll_of_none fun f _ => List.lookup_nil]
    exact (Except.ok.injEq ..).to_iff.trans eq_comm
  | cons e rest ih =>
    have ⟨hnew, hrest⟩ := List.nodup_cons.1 hkeys
    have hother (key : String) (hkey : key ≠ e.1) :
        (e :: rest).lookup key = rest.lookup key := by
      rw [List.lookup_cons, beq_false_of_ne hkey]
    rw [decodeTable_cons, bind_eq_ok_iff]
    simp only [ih hrest]
    split
    case h_1 field hfind =>
      have hfield := List.mem_of_find?_eq_some hfind
      have hkey : field.key = e.1 := by simpa using List.find?_some hfind
      have hnone : rest.lookup field.key = none :=
        lookup_eq_none (hkey.symm ▸ hnew)
      have hsome : (e :: rest).lookup field.key = some e.2 := by
        rw [List.lookup_cons, hkey, beq_self_eq_true]
      rw [hkey.symm] at hother
      exact (readsAll_of_put h hfield hnone hsome hother).symm
    case h_2 hfind =>
      simp only [Except.ok.injEq, exists_eq_left']
      refine readsAll_congr fun f hf => (hother f.key ?_).symm
      simpa using List.find?_eq_none.1 hfind f hf

theorem decodeArray_eq_ok_iff (hkeys : (fields.map (·.key)).Nodup) {items : List Toml.Value} :
    decodeArray fields s items = .ok s' ↔
      ReadsAll (((fields.map (·.key)).zip items).lookup ·) fields s s' := by
  induction fields generalizing s items with
  | nil => exact (Except.ok.injEq ..).to_iff.trans eq_comm
  | cons f fields ih =>
    cases items with
    | nil =>
      rw [readsAll_of_none fun f _ => List.lookup_nil]
      exact (Except.ok.injEq ..).to_iff.trans eq_comm
    | cons v items =>
      have hcons : decodeArray (f :: fields) s (v :: items) =
          f.set v s >>= fun next => decodeArray fields next items :=
        List.foldlM_cons ..
      have hrest (next : σ) :
          ReadsAll ((((f :: fields).map (·.key)).zip (v :: items)).lookup ·) fields next s' ↔
            ReadsAll (((fields.map (·.key)).zip items).lookup ·) fields next s' := by
        refine readsAll_congr fun g hg => ?_
        rw [List.map_cons, List.zip_cons_cons, List.lookup_cons,
          beq_false_of_ne (key_ne_of_mem hkeys hg)]
      have hfirst : (((f :: fields).map (·.key)).zip (v :: items)).lookup f.key = some v := by
        rw [List.map_cons, List.zip_cons_cons, List.lookup_cons, beq_self_eq_true]
      rw [hcons, bind_eq_ok_iff, ReadsAll, hfirst]
      simp only [Field.Reads, hrest, ih (List.nodup_cons.1 hkeys).2]

end SnippetLens.Config
