/-!
# Dictionaries

A dictionary lists entries by key, in ascending order of the keys by code point. Objects,
tables of templates and registries of functions are dictionaries, and wherever one is walked
its order is the order of the walk. `Sorted` is the invariant: `insert`, `erase` and `ofList`
keep it, and a sorted dictionary holds no key twice. The lookup after each operation is a
lemma, so that later proofs speak of `find?` alone.
-/
namespace StepGraph

/-- Entries by key. -/
abbrev Dictionary (α : Type) := List (String × α)

namespace Dictionary

variable {α β : Type}

/-- The value stored under a key. -/
def find? (entries : Dictionary α) (key : String) : Option α :=
  match entries with
  | [] => none
  | (name, value) :: rest => if name = key then some value else find? rest key

/-- Whether a key is stored. -/
def contains (entries : Dictionary α) (key : String) : Bool :=
  (find? entries key).isSome

/-- Store a value under a key, in place of any value stored there before. -/
def insert (entries : Dictionary α) (key : String) (value : α) : Dictionary α :=
  match entries with
  | [] => [(key, value)]
  | (name, held) :: rest =>
    if key < name then (key, value) :: (name, held) :: rest
    else if key = name then (key, value) :: rest
    else (name, held) :: insert rest key value

/-- Drop a key. -/
def erase (entries : Dictionary α) (key : String) : Dictionary α :=
  entries.filter fun entry => entry.1 ≠ key

/-- The keys in order. -/
def keys (entries : Dictionary α) : List String := entries.map Prod.fst

/-- The values in the order of their keys. -/
def values (entries : Dictionary α) : List α := entries.map Prod.snd

/-- The dictionary of a list of pairs, in which the last value given for a key wins. -/
def ofList (pairs : List (String × α)) : Dictionary α :=
  pairs.foldl (fun entries pair => insert entries pair.1 pair.2) []

/-- Keys ascend strictly. -/
def Sorted (entries : Dictionary α) : Prop :=
  entries.Pairwise fun left right => left.1 < right.1

/-- Nothing is stored in the empty dictionary. -/
theorem find?_nil (key : String) : find? ([] : Dictionary α) key = none := rfl

/-- A key just stored is found with its value. -/
theorem find?_insert_self (entries : Dictionary α) (key : String) (value : α) :
    find? (insert entries key value) key = some value := by
  induction entries with
  | nil => simp [insert, find?]
  | cons entry rest ih =>
    obtain ⟨name, held⟩ := entry
    simp only [insert]
    split
    · simp [find?]
    · split
      · simp [find?]
      · rename_i different
        simp [find?, Ne.symm different, ih]

/-- Storing under one key leaves every other key alone. -/
theorem find?_insert_of_ne (entries : Dictionary α) {key other : String} (value : α)
    (different : other ≠ key) :
    find? (insert entries key value) other = find? entries other := by
  induction entries with
  | nil => simp [insert, find?, Ne.symm different]
  | cons entry rest ih =>
    obtain ⟨name, held⟩ := entry
    simp only [insert]
    split
    · simp [find?, Ne.symm different]
    · split
      · rename_i same
        subst same
        simp [find?, Ne.symm different]
      · simp [find?, ih]

/-- Every entry after an insertion is the new one or an old one. -/
theorem mem_insert {entries : Dictionary α} {key : String} {value : α} {entry : String × α}
    (member : entry ∈ insert entries key value) : entry = (key, value) ∨ entry ∈ entries := by
  induction entries with
  | nil => exact Or.inl (List.mem_singleton.mp member)
  | cons first rest ih =>
    obtain ⟨name, held⟩ := first
    simp only [insert] at member
    split at member
    · rcases List.mem_cons.mp member with new | old
      · exact Or.inl new
      · exact Or.inr old
    · split at member
      · rcases List.mem_cons.mp member with new | old
        · exact Or.inl new
        · exact Or.inr (List.mem_cons_of_mem _ old)
      · rcases List.mem_cons.mp member with head | tail
        · exact Or.inr (head ▸ List.mem_cons_self)
        · rcases ih tail with new | old
          · exact Or.inl new
          · exact Or.inr (List.mem_cons_of_mem _ old)

/-- Insertion keeps the order of the keys. -/
theorem sorted_insert {entries : Dictionary α} (sorted : Sorted entries) (key : String)
    (value : α) : Sorted (insert entries key value) := by
  induction entries with
  | nil => exact List.pairwise_singleton _ _
  | cons first rest ih =>
    obtain ⟨name, held⟩ := first
    have parts := List.pairwise_cons.mp sorted
    simp only [insert]
    split
    · rename_i before
      refine List.pairwise_cons.mpr ⟨fun entry member => ?_, sorted⟩
      rcases List.mem_cons.mp member with head | tail
      · exact head ▸ before
      · exact String.lt_trans before (parts.1 entry tail)
    · rename_i notBefore
      split
      · rename_i same
        subst same
        exact List.pairwise_cons.mpr ⟨parts.1, parts.2⟩
      · rename_i different
        refine List.pairwise_cons.mpr ⟨fun entry member => ?_, ih parts.2⟩
        rcases mem_insert member with new | old
        · subst new
          exact Std.lt_of_le_of_ne (String.not_lt.mp notBefore) (Ne.symm different)
        · exact parts.1 entry old

/-- Dropping a key keeps the order of the others. -/
theorem sorted_erase {entries : Dictionary α} (sorted : Sorted entries) (key : String) :
    Sorted (erase entries key) :=
  List.Pairwise.filter _ sorted

/-- A dropped key is gone. -/
theorem find?_erase_self (entries : Dictionary α) (key : String) :
    find? (erase entries key) key = none := by
  induction entries with
  | nil => rfl
  | cons first rest ih =>
    obtain ⟨name, held⟩ := first
    by_cases same : name = key
    · simpa [erase, same] using ih
    · have rest := ih
      simp only [erase, ne_eq, decide_not] at rest ⊢
      simp [same, find?, rest]

/-- Dropping one key leaves every other key alone. -/
theorem find?_erase_of_ne (entries : Dictionary α) {key other : String} (different : other ≠ key) :
    find? (erase entries key) other = find? entries other := by
  induction entries with
  | nil => rfl
  | cons first rest ih =>
    obtain ⟨name, held⟩ := first
    have tail := ih
    simp only [erase, ne_eq, decide_not] at tail ⊢
    by_cases same : name = key
    · subst same
      simp [find?, Ne.symm different, tail]
    · simp [same, find?, tail]

/-- When keys are dropped one after the other, nothing is left under any of them and every other key
stays as it is. -/
theorem find?_foldl_erase (names : List String) (entries : Dictionary α) (key : String) :
    find? (names.foldl erase entries) key = if key ∈ names then none else find? entries key := by
  induction names generalizing entries with
  | nil => rw [List.foldl_nil, if_neg List.not_mem_nil]
  | cons name rest ih =>
    rw [List.foldl_cons, ih]
    by_cases later : key ∈ rest
    · rw [if_pos later, if_pos (List.mem_cons_of_mem name later)]
    · rw [if_neg later]
      by_cases same : key = name
      · subst same
        rw [if_pos List.mem_cons_self, find?_erase_self]
      · rw [if_neg (List.not_mem_cons_of_ne_of_not_mem same later), find?_erase_of_ne entries same]

/-- Dropping keys one after the other keeps the order of the rest. -/
theorem sorted_foldl_erase {entries : Dictionary α} (sorted : Sorted entries)
    (names : List String) : Sorted (names.foldl erase entries) := by
  induction names generalizing entries with
  | nil => exact sorted
  | cons name rest ih => exact ih (sorted_erase sorted name)

/-- A dictionary made from pairs is sorted. -/
theorem sorted_ofList (pairs : List (String × α)) : Sorted (ofList pairs) := by
  suffices general : ∀ start : Dictionary α, Sorted start →
      Sorted (pairs.foldl (fun entries pair => insert entries pair.1 pair.2) start) from
    general [] List.Pairwise.nil
  induction pairs with
  | nil => exact fun _ sorted => sorted
  | cons pair rest ih => exact fun start sorted => ih _ (sorted_insert sorted _ _)

/-- The keys of a dictionary are those under which something is stored. -/
theorem mem_keys_iff {entries : Dictionary α} {key : String} :
    key ∈ keys entries ↔ (find? entries key).isSome = true := by
  induction entries with
  | nil => simp [keys, find?]
  | cons entry rest ih =>
    obtain ⟨name, value⟩ := entry
    rw [keys] at ih ⊢
    by_cases same : name = key
    · simp [find?, same]
    · simp [find?, same, Ne.symm same, ih]

/-- Nothing is found under what is not a key. -/
theorem find?_eq_none_iff {entries : Dictionary α} {key : String} :
    find? entries key = none ↔ key ∉ keys entries := by
  rw [mem_keys_iff, Option.not_isSome_iff_eq_none]

/-- What is found is stored. -/
theorem mem_of_find?_eq_some {entries : Dictionary α} {key : String} {value : α}
    (found : find? entries key = some value) : (key, value) ∈ entries := by
  induction entries with
  | nil => cases found
  | cons entry rest ih =>
    obtain ⟨name, held⟩ := entry
    simp only [find?] at found
    split at found
    · rename_i same
      obtain rfl := Option.some.inj found
      exact same ▸ List.mem_cons_self
    · exact List.mem_cons_of_mem _ (ih found)

/-- A dictionary made from pairs stores none but them. -/
theorem mem_of_mem_ofList {pairs : List (String × α)} {entry : String × α}
    (member : entry ∈ ofList pairs) : entry ∈ pairs := by
  have general (start : Dictionary α)
      (held : entry ∈ pairs.foldl (fun entries pair => insert entries pair.1 pair.2) start) :
      entry ∈ pairs ∨ entry ∈ start := by
    clear member
    induction pairs generalizing start with
    | nil => exact .inr held
    | cons pair rest ih =>
      rcases ih _ held with later | before
      · exact .inl (List.mem_cons_of_mem _ later)
      · rcases mem_insert before with rfl | old
        · exact .inl List.mem_cons_self
        · exact .inr old
  exact (general [] member).resolve_right List.not_mem_nil

/-- Entries put in front of others hide those with the same key. -/
@[simp] theorem find?_append (left right : Dictionary α) (key : String) :
    find? (left ++ right) key = (find? left key).or (find? right key) := by
  induction left with
  | nil => rfl
  | cons entry rest ih =>
    rw [List.cons_append, find?, find?]
    split
    · rfl
    · exact ih

/-- In a dictionary made from pairs with keys of their own each is found with its value. -/
theorem find?_ofList {pairs : List (String × α)} (distinct : (pairs.map Prod.fst).Nodup)
    (key : String) : find? (ofList pairs) key = find? pairs key := by
  have general (start : Dictionary α) :
      find? (pairs.foldl (fun entries pair => insert entries pair.1 pair.2) start) key =
        (find? pairs key).or (find? start key) := by
    induction pairs generalizing start with
    | nil => rfl
    | cons pair rest ih =>
      obtain ⟨name, value⟩ := pair
      obtain ⟨fresh, others⟩ := List.nodup_cons.mp distinct
      rw [List.foldl_cons, ih others, find?]
      split
      · rename_i same
        subst same
        have nothing : find? rest name = none := find?_eq_none_iff.mpr fresh
        rw [nothing, Option.none_or, find?_insert_self, Option.some_or]
      · rename_i different
        rw [find?_insert_of_ne start value (Ne.symm different)]
  exact (general []).trans Option.or_none

/-- Below all keys nothing is found. -/
theorem find?_eq_none_of_lt {entries : Dictionary α} {key : String}
    (below : ∀ entry ∈ entries, key < entry.1) : find? entries key = none := by
  cases found : find? entries key with
  | none => rfl
  | some value =>
    have above := below _ (mem_of_find?_eq_some found)
    exact absurd above (String.lt_irrefl key)

/-- A sorted dictionary holds no key twice. -/
theorem nodup_keys {entries : Dictionary α} (sorted : Sorted entries) : (keys entries).Nodup := by
  refine List.pairwise_map.mpr (List.Pairwise.imp (fun {left right} before same => ?_) sorted)
  rw [same] at before
  exact String.lt_irrefl _ before

/-- In a sorted dictionary each key is found with the value that it is stored with. -/
theorem find?_eq_some_iff {entries : Dictionary α} (sorted : Sorted entries) {key : String}
    {value : α} : find? entries key = some value ↔ (key, value) ∈ entries := by
  refine ⟨mem_of_find?_eq_some, fun member => ?_⟩
  induction entries with
  | nil => cases member
  | cons entry rest ih =>
    obtain ⟨name, held⟩ := entry
    have parts := List.pairwise_cons.mp sorted
    rcases List.mem_cons.mp member with here | later
    · obtain ⟨rfl, rfl⟩ := Prod.mk.inj here
      exact if_pos rfl
    · have before : name < key := parts.1 _ later
      have different : name ≠ key := fun same => String.lt_irrefl key (same ▸ before)
      rw [find?, if_neg different]
      exact ih parts.2 later

/-- A sorted dictionary is determined by what is found in it. -/
theorem eq_of_find?_eq {left right : Dictionary α} (left_sorted : Sorted left)
    (right_sorted : Sorted right) (same : ∀ key, find? left key = find? right key) :
    left = right := by
  induction left generalizing right with
  | nil =>
    cases right with
    | nil => rfl
    | cons entry rest =>
      have found := same entry.1
      rw [find?, find?, if_pos rfl] at found
      cases found
  | cons entry rest ih =>
    obtain ⟨name, value⟩ := entry
    have parts := List.pairwise_cons.mp left_sorted
    cases right with
    | nil =>
      have found := same name
      rw [find?, find?, if_pos rfl] at found
      cases found
    | cons other others =>
      obtain ⟨name', value'⟩ := other
      have parts' := List.pairwise_cons.mp right_sorted
      have here : find? ((name, value) :: rest) name = some value := if_pos rfl
      have there : find? ((name', value') :: others) name' = some value' := if_pos rfl
      have names : name = name' := by
        by_cases before : name < name'
        · have nothing : find? ((name', value') :: others) name = none :=
            find?_eq_none_of_lt (List.forall_mem_cons.mpr
              ⟨before, fun entry member => String.lt_trans before (parts'.1 entry member)⟩)
          rw [← same name, here] at nothing
          cases nothing
        · by_cases after : name' < name
          · have nothing : find? ((name, value) :: rest) name' = none :=
              find?_eq_none_of_lt (List.forall_mem_cons.mpr
                ⟨after, fun entry member => String.lt_trans after (parts.1 entry member)⟩)
            rw [same name', there] at nothing
            cases nothing
          · exact String.le_antisymm (String.not_lt.mp after) (String.not_lt.mp before)
      subst names
      rw [same name, there] at here
      obtain rfl := Option.some.inj here
      have tails (key : String) : find? rest key = find? others key := by
        by_cases first : name = key
        · subst first
          rw [find?_eq_none_of_lt parts.1, find?_eq_none_of_lt parts'.1]
        · have found := same key
          rwa [find?, find?, if_neg first, if_neg first] at found
      rw [ih parts.2 parts'.2 tails]

/-- The lookup where each value is made from its key and what was stored under it. -/
theorem find?_map_entries (change : String → α → β) (entries : Dictionary α) (key : String) :
    find? (entries.map fun entry => (entry.1, change entry.1 entry.2)) key =
      (find? entries key).map (change key) := by
  induction entries with
  | nil => rfl
  | cons entry rest ih =>
    simp only [List.map_cons, find?]
    split
    · rename_i same
      rw [same, Option.map_some]
    · exact ih

/-- The lookup in a dictionary whose values are mapped. -/
theorem find?_map (change : α → β) (entries : Dictionary α) (key : String) :
    find? (entries.map fun entry => (entry.1, change entry.2)) key =
      (find? entries key).map change :=
  find?_map_entries (fun _ => change) entries key

end Dictionary

end StepGraph
