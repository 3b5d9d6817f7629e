import SnippetLens.Config.Toml.Document

/-!
What is read from a document is tidy: no table of it, at any depth, has two entries with the same
key, and every integer fits into 64 bits.

Tables come about in two ways, between braces and under headers, and both put their entries together
with the same operations. These keep a table tidy, so each line of a document does, and so does the
whole document.
-/

namespace SnippetLens.Config.Toml

/-- No table in a value has a key twice, and its integers fit into 64 bits. -/
inductive Value.IsTidy : Value → Prop where
  | text (s : String) : IsTidy (.text s)
  | integer {n : Int} (h : Int64.minValue.toInt ≤ n ∧ n ≤ Int64.maxValue.toInt) :
    IsTidy (.integer n)
  | float (x : Decimal.Binary64) : IsTidy (.float x)
  | boolean (b : Bool) : IsTidy (.boolean b)
  | moment : IsTidy .moment
  | array {items : List Value} (h : ∀ v ∈ items, IsTidy v) : IsTidy (.array items)
  | table {entries : List (String × Value)} (hkeys : (entries.map (·.1)).Nodup)
    (h : ∀ e ∈ entries, IsTidy e.2) : IsTidy (.table entries)

/-! ### Putting tables together -/

theorem entryValues_eq (entries : List (String × Node)) :
    entryValues entries = entries.map fun e => (e.1, e.2.value) := by
  induction entries with
  | nil => rfl
  | cons e rest ih => rw [entryValues, ih, List.map_cons]

theorem mem_tableValues {v : Value} {before : List Table} :
    v ∈ tableValues before ↔ ∃ t ∈ before, t.value = v := by
  induction before with
  | nil => simp [tableValues]
  | cons t before ih => simp [tableValues, ih, or_comm, eq_comm]

namespace Table

variable {t t' : Table} {key : String} {node : Node}

theorem isTidy_value_iff :
    t.value.IsTidy ↔ (t.entries.map (·.1)).Nodup ∧ ∀ e ∈ t.entries, e.2.value.IsTidy := by
  obtain ⟨implicit, dotted, entries⟩ := t
  rw [Table.value, entryValues_eq, Table.entries]
  constructor
  · rintro (_ | _ | _ | _ | _ | _ | ⟨hkeys, h⟩)
    refine ⟨by simpa [Function.comp_def] using hkeys, fun e he => ?_⟩
    exact h (e.1, e.2.value) (List.mem_map.2 ⟨e, he, rfl⟩)
  · rintro ⟨hkeys, h⟩
    refine .table (by simpa [Function.comp_def] using hkeys) fun e he => ?_
    obtain ⟨_, hentry, rfl⟩ := List.mem_map.1 he
    exact h _ hentry

theorem isTidy_tables_iff {last : Table} {before : List Table} :
    (Node.tables last before).value.IsTidy ↔
      last.value.IsTidy ∧ ∀ t ∈ before, t.value.IsTidy := by
  rw [Node.value]
  constructor
  · rintro (_ | _ | _ | _ | _ | h)
    refine ⟨h _ (by simp), fun t ht => h _ (List.mem_append_left _ ?_)⟩
    exact mem_tableValues.2 ⟨t, ht, rfl⟩
  · rintro ⟨hlast, hbefore⟩
    refine .array fun v hv => ?_
    obtain hv | hv := List.mem_append.1 hv
    · obtain ⟨t, ht, rfl⟩ := mem_tableValues.1 hv
      exact hbefore t ht
    · exact List.mem_singleton.1 hv ▸ hlast

theorem isTidy_mk_nil (implicit dotted : Bool) : (mk implicit dotted []).value.IsTidy :=
  isTidy_value_iff.2 ⟨.nil, by simp [entries]⟩

theorem isTidy_of_get? (ht : t.value.IsTidy) (hget : t.get? key = some node) :
    node.value.IsTidy := by
  obtain ⟨e, he, rfl⟩ := Option.map_eq_some_iff.1 hget
  exact (isTidy_value_iff.1 ht).2 e (List.mem_of_find?_eq_some he)

theorem isTidy_put (ht : t.value.IsTidy) (hnode : node.value.IsTidy) :
    (t.put key node).value.IsTidy := by
  obtain ⟨hkeys, hentries⟩ := isTidy_value_iff.1 ht
  rw [isTidy_value_iff, put]
  split
  case isTrue =>
    have hmap : (t.entries.map fun e => if e.1 = key then (key, node) else e).map (·.1) =
        t.entries.map (·.1) := by
      rw [List.map_map]
      refine List.map_congr_left fun e _ => ?_
      dsimp only [Function.comp]
      split
      case isTrue h => exact h.symm
      case isFalse => rfl
    refine ⟨hmap ▸ hkeys, fun e he => ?_⟩
    obtain ⟨old, hold, rfl⟩ := List.mem_map.1 he
    split
    · exact hnode
    · exact hentries old hold
  case isFalse h =>
    have hnew : key ∉ t.entries.map (·.1) := by simpa using h
    refine ⟨?_, fun e he => ?_⟩
    · rw [entries, List.map_append, List.nodup_append]
      refine ⟨hkeys, by simp, fun k hk k' hk' => ?_⟩
      obtain rfl : k' = key := List.mem_singleton.1 hk'
      rintro rfl
      exact hnew hk
    · obtain he | he := List.mem_append.1 he
      · exact hentries e he
      · exact List.mem_singleton.1 he ▸ hnode

theorem isTidy_erase (ht : t.value.IsTidy) : (t.erase key).value.IsTidy := by
  obtain ⟨hkeys, hentries⟩ := isTidy_value_iff.1 ht
  refine isTidy_value_iff.2 ⟨?_, fun e he => hentries e (List.mem_filter.1 he).1⟩
  exact hkeys.sublist (List.filter_sublist.map _)

/-- A change in a table that keeps it tidy keeps the tables around it tidy. -/
theorem isTidy_changeAt {ofEntry : Bool} {change : Table → Option Table} {path : List String}
    (hchange : ∀ {t t' : Table}, t.value.IsTidy → change t = some t' → t'.value.IsTidy)
    (ht : t.value.IsTidy) (h : t.changeAt ofEntry change path = some t') : t'.value.IsTidy := by
  induction path generalizing t t' with
  | nil => exact hchange ht h
  | cons key path ih =>
    rw [changeAt] at h
    split at h
    -- Nothing is there, so the change is made in an empty table.
    case h_1 =>
      obtain ⟨inner, hinner, h⟩ := Option.bind_eq_some_iff.1 h
      cases h
      exact isTidy_put ht (ih (isTidy_mk_nil true ofEntry) hinner)
    case h_2 => cases h
    case h_3 last before hget =>
      obtain ⟨inner, hinner, h⟩ := Option.bind_eq_some_iff.1 h
      cases h
      obtain ⟨hlast, hbefore⟩ := isTidy_tables_iff.1 (isTidy_of_get? ht hget)
      exact isTidy_put ht (isTidy_tables_iff.2 ⟨ih hlast hinner, hbefore⟩)
    case h_4 inner hget =>
      split at h
      case isTrue => cases h
      case isFalse =>
        obtain ⟨inner, hinner, h⟩ := Option.bind_eq_some_iff.1 h
        cases h
        exact isTidy_put ht (ih (isTidy_of_get? ht hget) hinner)

theorem isTidy_addEntry {path : List String} {v : Value} (ht : t.value.IsTidy) (hv : v.IsTidy)
    (h : t.addEntry path key v = some t') : t'.value.IsTidy := by
  refine isTidy_changeAt (fun {t t'} ht h => ?_) ht h
  split at h
  case isTrue => cases h
  case isFalse =>
    cases h
    exact isTidy_put ht hv

theorem isTidy_nodeAt {path : List String} {found : Option Node} (ht : t.value.IsTidy)
    (h : openHeader.nodeAt t path key = some found) : ∀ node ∈ found, node.value.IsTidy := by
  induction path generalizing t with
  | nil =>
    cases h
    exact fun node hnode => isTidy_of_get? ht hnode
  | cons step path ih =>
    rw [openHeader.nodeAt] at h
    split at h
    case h_1 inner hget => exact ih (isTidy_of_get? ht hget) h
    case h_2 last before hget => exact ih (isTidy_tables_iff.1 (isTidy_of_get? ht hget)).1 h
    case h_3 => cases h

theorem isTidy_openHeader {path : List String} {found root : Table} (ht : t.value.IsTidy)
    (h : t.openHeader path key = some (found, root)) :
    found.value.IsTidy ∧ root.value.IsTidy := by
  unfold openHeader at h
  obtain ⟨made, hmade, h⟩ := Option.bind_eq_some_iff.1 h
  have hmade := isTidy_changeAt (fun ht h => Option.some.inj h ▸ ht) ht hmade
  obtain ⟨node?, hnode, h⟩ := Option.bind_eq_some_iff.1 h
  have hnode := isTidy_nodeAt hmade hnode
  dsimp only at h
  split at h
  case h_1 =>
    cases h
    exact ⟨isTidy_mk_nil false false, hmade⟩
  case h_2 t hfound =>
    split at h
    case isTrue =>
      obtain ⟨without, hwithout, h⟩ := Option.bind_eq_some_iff.1 h
      cases h
      have hnamed : (mk false false t.entries).value.IsTidy :=
        isTidy_value_iff.2 ((isTidy_value_iff (t := t)).1 (hnode _ rfl))
      refine ⟨hnamed, ?_⟩
      exact isTidy_changeAt (fun ht h => Option.some.inj h ▸ isTidy_erase ht) hmade hwithout
    case isFalse => cases h
  case h_3 => cases h

theorem isTidy_openArrayHeader {path : List String} (ht : t.value.IsTidy)
    (h : t.openArrayHeader path key = some t') : t'.value.IsTidy := by
  refine isTidy_changeAt (fun {t t'} ht h => ?_) ht h
  split at h
  all_goals cases h
  all_goals exact ht

theorem isTidy_closeHeader {path : List String} {inner : Table} (ht : t.value.IsTidy)
    (hinner : inner.value.IsTidy) (h : t.closeHeader path key inner = some t') :
    t'.value.IsTidy := by
  refine isTidy_changeAt (fun {t t'} ht h => ?_) ht h
  split at h
  case h_1 =>
    cases h
    exact isTidy_put ht hinner
  case h_2 =>
    split at h
    case isTrue =>
      cases h
      exact isTidy_put ht hinner
    case isFalse => cases h
  case h_3 => cases h

theorem isTidy_closeArrayHeader {path : List String} {inner : Table} (ht : t.value.IsTidy)
    (hinner : inner.value.IsTidy) (h : t.closeArrayHeader path key inner = some t') :
    t'.value.IsTidy := by
  refine isTidy_changeAt (fun {t t'} ht h => ?_) ht h
  split at h
  case h_1 =>
    cases h
    exact isTidy_put ht (isTidy_tables_iff.2 ⟨hinner, by simp⟩)
  case h_2 last before hget =>
    cases h
    obtain ⟨hlast, hbefore⟩ := isTidy_tables_iff.1 (isTidy_of_get? ht hget)
    exact isTidy_put ht (isTidy_tables_iff.2 ⟨hinner, by simpa using ⟨hlast, hbefore⟩⟩)
  case h_3 => cases h

end Table

/-! ### What a reader can read -/

namespace Reader

variable {α β : Type} {P : α → Prop} {Q : β → Prop} {p q : Reader α} {f : α → Reader β}

def Yields (p : Reader α) (P : α → Prop) : Prop :=
  ∀ ⦃s : List Char⦄ ⦃a : α⦄ ⦃r : List Char⦄, p s = some (a, r) → P a

theorem yields_pure {a : α} (h : P a) : Yields (pure a) P := by
  intro s b r hread
  cases hread
  exact h

theorem yields_failure : Yields (failure : Reader α) P := by
  intro s a r hread
  cases hread

theorem yields_lift {result : Option α} (h : ∀ a, result = some a → P a) :
    Yields (liftM result) P := by
  intro s a r hread
  obtain ⟨b, hb, hread⟩ := Option.bind_eq_some_iff.1 hread
  cases hread
  exact h _ hb

theorem Yields.bind (hp : Yields p P) (hf : ∀ a, P a → Yields (f a) Q) : Yields (p >>= f) Q := by
  intro s b r hread
  obtain ⟨⟨a, r'⟩, ha, hb⟩ := Option.bind_eq_some_iff.1 hread
  exact hf a (hp ha) hb

theorem yields_bind (hf : ∀ a, Yields (f a) Q) : Yields (p >>= f) Q :=
  Yields.bind (P := fun _ => True) (fun _ _ _ _ => trivial) fun a _ => hf a

theorem Yields.orElse (hp : Yields p P) (hq : Yields q P) : Yields (p <|> q) P := by
  intro s a r hread
  replace hread : (p s <|> q s) = some (a, r) := hread
  cases hfirst : p s with
  | none => exact hq (by simpa [hfirst] using hread)
  | some first =>
    rw [hfirst] at hread
    exact hp (hfirst.trans hread)

theorem Yields.maybe (hp : Yields p P) : Yields (maybe p) fun a? => ∀ a ∈ a?, P a := by
  intro s a? r hread
  unfold Reader.maybe at hread
  split at hread
  case h_1 a r hread' =>
    cases hread
    rintro _ ⟨⟩
    exact hp hread'
  case h_2 =>
    cases hread
    simp

theorem Yields.repeated (hp : Yields p P) (n : Nat) :
    Yields (repeated p n) fun l => ∀ a ∈ l, P a := by
  induction n with
  | zero => exact yields_pure (by simp)
  | succ n ih =>
    intro s l r hread
    unfold Reader.repeated at hread
    split at hread
    case h_1 =>
      cases hread
      simp
    case h_2 a r' hfirst =>
      split at hread
      case isTrue =>
        have hcons : Yields (do return a :: (← Reader.repeated p n)) fun l => ∀ a ∈ l, P a :=
          ih.bind fun l hl => yields_pure (by simpa using ⟨hp hfirst, hl⟩)
        exact hcons hread
      case isFalse =>
        cases hread
        simpa using hp hfirst

theorem Yields.many (hp : Yields p P) : Yields (many p) fun l => ∀ a ∈ l, P a :=
  fun s _ _ hread => hp.repeated s.length hread

theorem Yields.separated {separator : Reader Unit} (hp : Yields p P) :
    Yields (separated p separator) fun l => ∀ a ∈ l, P a := by
  have hlist : Yields (separated1 p separator) fun l => ∀ a ∈ l, P a := by
    refine hp.bind fun first hfirst => ?_
    refine (Yields.many (yields_bind fun _ => hp)).bind fun rest hrest => ?_
    exact yields_pure (by simpa using ⟨hfirst, hrest⟩)
  refine hlist.maybe.bind fun l? hl => yields_pure ?_
  cases l? with
  | none => simp
  | some l => exact hl l rfl

end Reader

/-! ### Values -/

open Reader

theorem yields_integerIn (n : Int) : Yields (integerIn n) Value.IsTidy := by
  unfold integerIn
  split
  case isTrue h => exact yields_pure (.integer (by simpa using h))
  case isFalse => exact yields_failure

theorem yields_based (lead : String) (base : Nat) (isDigit : Char → Bool) :
    Yields (based lead base isDigit) Value.IsTidy :=
  yields_bind fun _ => yields_bind fun _ => yields_integerIn _

theorem yields_integer : Yields integer Value.IsTidy := by
  unfold integer decimalInteger
  refine (yields_based ..).orElse ((yields_based ..).orElse ((yields_based ..).orElse ?_))
  exact yields_bind fun _ => yields_bind fun _ => yields_integerIn _

theorem yields_decimalFloat : Yields decimalFloat Value.IsTidy := by
  unfold decimalFloat
  have hend (x : Decimal.Binary64) :
      Yields (if x = .infinite false then failure else pure (.float x)) Value.IsTidy := by
    split
    · exact yields_failure
    · exact yields_pure (.float x)
  -- Whatever stands before the number, it ends in a float.
  refine yields_bind fun _ => yields_bind fun _ => yields_bind fun places? => ?_
  dsimp only
  split
  · exact yields_bind fun _ => hend _
  · exact yields_bind fun _ => hend _

theorem yields_namedFloat : Yields namedFloat Value.IsTidy := by
  unfold namedFloat
  refine yields_bind fun _ => ?_
  exact (yields_bind fun _ => yields_pure (.float _)).orElse
    (yields_bind fun _ => yields_pure (.float _))

theorem yields_moment : Yields moment Value.IsTidy :=
  yields_bind fun _ => yields_pure .moment

theorem yields_scalar : Yields scalar Value.IsTidy := by
  unfold scalar
  refine yields_bind fun c? => ?_
  split
  case h_1 | h_2 => exact yields_bind fun _ => yields_pure (.text _)
  case h_3 | h_4 => exact yields_bind fun _ => yields_pure (.boolean _)
  case h_5 =>
    exact yields_moment.orElse
      (yields_decimalFloat.orElse (yields_namedFloat.orElse yields_integer))

/-- The keys of an entry may be any; its value is what is read after them. -/
theorem Reader.Yields.entry {value : Reader Value} (hvalue : Yields value Value.IsTidy) :
    Yields (entry value) fun e => e.2.2.IsTidy := by
  refine yields_bind fun path => yields_bind fun _ => yields_bind fun _ => ?_
  refine hvalue.bind fun v hv => ?_
  split
  · exact yields_pure hv
  · exact yields_failure

theorem isTidy_foldlM_addEntry {entries : List (List String × String × Value)} {t t' : Table}
    (ht : t.value.IsTidy) (hentries : ∀ e ∈ entries, e.2.2.IsTidy)
    (h : entries.foldlM (fun t (path, key, v) => Table.addEntry t path key v) t = some t') :
    t'.value.IsTidy := by
  induction entries generalizing t with
  | nil =>
    cases h
    exact ht
  | cons e rest ih =>
    rw [List.foldlM_cons] at h
    obtain ⟨next, hnext, h⟩ := Option.bind_eq_some_iff.1 h
    have hnext := Table.isTidy_addEntry ht (hentries e (by simp)) hnext
    exact ih hnext (fun e he => hentries e (by simp [he])) h

theorem yields_value (depth : Nat) : Yields (value depth) Value.IsTidy := by
  induction depth with
  | zero =>
    refine yields_bind fun c? => ?_
    split
    case h_1 | h_2 => exact yields_failure
    case h_3 => exact yields_scalar
  | succ depth ih =>
    refine yields_bind fun c? => ?_
    split
    case h_1 =>
      refine yields_bind fun _ => ?_
      have hitem : Yields (do blanks; let v ← value depth; blanks; return v) Value.IsTidy :=
        yields_bind fun _ => ih.bind fun v hv => yields_bind fun _ => yields_pure hv
      refine hitem.separated.bind fun items hitems => ?_
      have hend : Yields (do blanks; exactly "]"; return .array items) Value.IsTidy :=
        yields_bind fun _ => yields_bind fun _ => yields_pure (.array hitems)
      dsimp only
      split
      · exact yields_bind fun _ => hend
      · exact hend
    case h_2 =>
      refine yields_bind fun _ => ?_
      have hentry : Yields (do let e ← entry (value depth); spaces; return e)
          fun e => e.2.2.IsTidy :=
        ih.entry.bind fun e he => yields_bind fun _ => yields_pure he
      refine hentry.separated.bind fun entries hentries => ?_
      refine yields_bind fun _ => yields_bind fun _ => ?_
      split
      case h_1 t hfold =>
        exact yields_pure (isTidy_foldlM_addEntry (Table.isTidy_mk_nil false false) hentries hfold)
      case h_2 => exact yields_failure
    case h_3 => exact yields_scalar

/-! ### Documents -/

structure Progress.IsTidy (p : Progress) : Prop where
  root : p.root.value.IsTidy
  current : p.current.value.IsTidy

namespace Progress

variable {p p' : Progress} {path : List String} {key : String}

theorem isTidy_start : start.IsTidy :=
  ⟨Table.isTidy_mk_nil false false, Table.isTidy_mk_nil false false⟩

theorem IsTidy.close (hp : p.IsTidy) {t : Table} (h : p.close = some t) : t.value.IsTidy := by
  unfold Progress.close at h
  split at h
  case h_1 =>
    cases h
    exact hp.current
  case h_2 => exact Table.isTidy_closeHeader hp.root hp.current h
  case h_3 => exact Table.isTidy_closeArrayHeader hp.root hp.current h

theorem IsTidy.openHeader {ofArray : Bool} (hp : p.IsTidy)
    (h : p.openHeader path key ofArray = some p') : p'.IsTidy := by
  obtain ⟨root, hroot, h⟩ := Option.bind_eq_some_iff.1 h
  have hroot := hp.close hroot
  cases ofArray with
  | true =>
    obtain ⟨root', hopen, h⟩ := Option.bind_eq_some_iff.1 h
    cases h
    exact ⟨Table.isTidy_openArrayHeader hroot hopen, Table.isTidy_mk_nil false false⟩
  | false =>
    obtain ⟨⟨current, root'⟩, hopen, h⟩ := Option.bind_eq_some_iff.1 h
    cases h
    obtain ⟨hcurrent, hroot⟩ := Table.isTidy_openHeader hroot hopen
    exact ⟨hroot, hcurrent⟩

theorem IsTidy.addEntry {v : Value} (hp : p.IsTidy) (hv : v.IsTidy)
    (h : p.addEntry path key v = some p') : p'.IsTidy := by
  obtain ⟨current, hcurrent, h⟩ := Option.bind_eq_some_iff.1 h
  cases h
  exact ⟨hp.root, Table.isTidy_addEntry hp.current hv hcurrent⟩

theorem IsTidy.line (hp : p.IsTidy) : Yields (line p) IsTidy := by
  refine yields_bind fun c? => ?_
  split
  case h_1 => exact yields_bind fun _ => yields_bind fun _ => yields_pure hp
  case h_2 | h_3 => exact yields_bind fun _ => yields_pure hp
  case h_4 =>
    exact yields_bind fun ⟨_, _, _⟩ => yields_lift fun _ h => hp.openHeader h
  case h_5 =>
    refine (yields_value _).entry.bind fun ⟨_, _, v⟩ hv => yields_bind fun _ => ?_
    exact yields_lift fun _ h => hp.addEntry hv h
  case h_6 => exact yields_failure

theorem IsTidy.lines {n : Nat} (hp : p.IsTidy) : Yields (lines n p) IsTidy := by
  induction n generalizing p with
  | zero => exact yields_bind fun _ => yields_pure hp
  | succ n ih =>
    refine yields_bind fun _ => yields_bind fun c? => ?_
    split
    case h_1 => exact yields_pure hp
    case h_2 => exact hp.line.bind fun _ hp => ih hp

end Progress

theorem isTidy_of_parse? {document : String} {entries : List (String × Value)}
    (h : parse? document = some entries) : (Value.table entries).IsTidy := by
  obtain ⟨⟨progress, rest⟩, hread, h⟩ := Option.bind_eq_some_iff.1 h
  dsimp only at h
  split at h
  case isTrue =>
    obtain ⟨root, hclose, h⟩ := Option.bind_eq_some_iff.1 h
    cases h
    obtain ⟨implicit, dotted, entries⟩ := root
    exact (Progress.isTidy_start.lines hread).close hclose
  case isFalse => cases h

end SnippetLens.Config.Toml
