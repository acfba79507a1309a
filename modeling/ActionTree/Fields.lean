/-
# Fields

Named entries in ascending order of name: the shape of JSON objects, of
contexts and of settings tables.

* `Fields.get?`: the entry stored under a name.
* `Fields.set`: stores an entry, replacing one of the same name.
* `Fields.ofList`: stores the entries of a list one after the other, so the last
  of two entries with one name stays.
* `Fields.Ascending`: the order that `set` keeps.
-/

namespace ActionTree

/-- Entries with names. Names are compared by code point, which is the order of
their UTF-8 bytes. -/
abbrev Fields (α : Type) := List (String × α)

namespace Fields

variable {α : Type}

/-- The entry stored under `name`. -/
def get? (fields : Fields α) (name : String) : Option α :=
  List.lookup name fields

/-- Stores `value` under `name`: in place of an entry of that name, else in
front of the first entry with a larger name. -/
def set : Fields α → String → α → Fields α
  | [], name, value => [(name, value)]
  | (other, old) :: rest, name, value =>
    if name = other then (name, value) :: rest
    else if name < other then (name, value) :: (other, old) :: rest
    else (other, old) :: set rest name value

/-- The fields that a list of entries denotes; of two entries with one name the
later counts. -/
def ofList (entries : List (String × α)) : Fields α :=
  entries.foldl (fun fields entry => fields.set entry.1 entry.2) []

/-- The names strictly ascend, so no name occurs twice. -/
def Ascending (fields : Fields α) : Prop :=
  (fields.map Prod.fst).Pairwise (· < ·)

@[simp] theorem get?_nil (name : String) : get? ([] : Fields α) name = none := rfl

@[simp] theorem get?_cons (name other : String) (value : α) (rest : Fields α) :
    get? ((other, value) :: rest) name = if name = other then some value else get? rest name := by
  rw [get?, List.lookup_cons]
  by_cases h : name = other
  · rw [beq_iff_eq.2 h, if_pos h]
  · rw [beq_false_of_ne h, if_neg h]; rfl

theorem get?_set_self (fields : Fields α) (name : String) (value : α) :
    (fields.set name value).get? name = some value := by
  induction fields with
  | nil => simp [set]
  | cons entry rest ih =>
    obtain ⟨other, old⟩ := entry
    by_cases h : name = other
    · simp [set, h]
    · by_cases hlt : name < other <;> simp [set, h, hlt, ih]

theorem get?_set_of_ne (fields : Fields α) {name key : String} (value : α) (h : key ≠ name) :
    (fields.set name value).get? key = fields.get? key := by
  induction fields with
  | nil => simp [set, h]
  | cons entry rest ih =>
    obtain ⟨other, old⟩ := entry
    by_cases he : name = other
    · subst he; simp [set, h]
    · by_cases hlt : name < other
      · simp [set, he, hlt, h]
      · simp [set, he, hlt, ih]

/-- Entries with different names are all found under their names. -/
theorem get?_ofList_of_mem {entries : List (String × α)} (h : (entries.map Prod.fst).Nodup)
    {name : String} {value : α} (hm : (name, value) ∈ entries) :
    (ofList entries).get? name = some value := by
  have keep : ∀ (entries : List (String × α)) (fields : Fields α), name ∉ entries.map Prod.fst →
      Fields.get? (entries.foldl (fun fields entry => fields.set entry.1 entry.2) fields) name =
        fields.get? name := by
    intro entries
    induction entries with
    | nil => exact fun _ _ => rfl
    | cons entry rest ih =>
      intro fields hn
      rw [List.map_cons, List.mem_cons, not_or] at hn
      rw [List.foldl_cons, ih _ hn.2, get?_set_of_ne _ _ hn.1]
  unfold ofList
  generalize ([] : Fields α) = fields
  induction entries generalizing fields with
  | nil => cases hm
  | cons entry rest ih =>
    obtain ⟨hn, hrest⟩ := List.nodup_cons.1 h
    rcases List.mem_cons.1 hm with rfl | hm
    · rw [List.foldl_cons, keep _ _ hn, get?_set_self]
    · exact ih hrest hm _

/-- A name in front of all names has no entry. -/
theorem get?_eq_none_of_lt {fields : Fields α} {name : String}
    (h : ∀ other ∈ fields.map Prod.fst, name < other) : fields.get? name = none := by
  refine List.lookup_eq_none_iff.2 fun field hf => ?_
  have hlt := h field.1 (List.mem_map_of_mem hf)
  exact bne_iff_ne.2 fun he => String.lt_irrefl _ (he ▸ hlt)

/-- No name that has an entry stands in front of the first. -/
theorem Ascending.first_le {rest : Fields α} {first name : String} {value : α}
    (h : Ascending ((first, value) :: rest)) (hn : get? ((first, value) :: rest) name ≠ none) :
    first ≤ name := by
  refine String.not_lt.1 fun hlt => hn (get?_eq_none_of_lt (List.forall_mem_cons.2 ⟨hlt, ?_⟩))
  exact fun other ho => String.lt_trans hlt ((List.pairwise_cons.1 h).1 other ho)

end Fields
end ActionTree
