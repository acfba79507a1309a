/-
# What merging tables leaves in a place

Entries are put into a table one after the other. In each place of it the last one counts
(`Setting.said?`), with one exception: a table that is put there, or a value that is put
somewhere below, does not replace what it finds but is merged into it, and leaves a table or
an array, which is no value of a setting. So what is found in a place is what was said of it,
or it is a table or an array and something was said below (`Setting.Agrees`).

Key definitions: `Setting.said?`, `Setting.Agrees`.
Key theorems: `Setting.agrees_insert?`, `Setting.agrees_insertAll?`,
`Setting.isPlain_insert?`.
-/
import ActionTree.Proofs.Settings.Laws

namespace ActionTree
namespace Setting

open Settings (Library)

variable {target value : Setting} {name key : String} {entries : List (String × Setting)}

/-! ### Tables -/

/-- What a value says of the place where it is put. A table says nothing of the place itself,
only of the names in it. -/
def own? : Setting → Option Setting
  | table _ => none
  | value => some value

theorem own?_eq_some (h : value.isTable = false) : value.own? = some value := by
  cases value with
  | table entries => cases h
  | _ => rfl

theorem isPlain_of_isTable (h : value.isTable = true) : value.isPlain = false := by
  cases value with
  | table entries => rfl
  | _ => cases h

theorem isTable_of_isPlain (h : value.isPlain = true) : value.isTable = false := by
  cases value with
  | table entries => cases h
  | _ => rfl

theorem exists_of_isTable (h : value.isTable = true) : ∃ entries, value = table entries := by
  cases value with
  | table entries => exact ⟨entries, rfl⟩
  | _ => cases h

/-! ### Names -/

/-- What an entry says of a name. -/
def saidBy? (lib : Library) (name : String) (entry : String × Setting) : Option Setting :=
  if lib.lower entry.1 = name then entry.2.own? else none

/-- What entries say of a name: the last value that one of them gives to it. -/
def said? (lib : Library) (name : String) (entries : List (String × Setting)) :
    Option Setting :=
  (entries.filterMap (saidBy? lib name)).getLast?

/-- Some entry has a table under a name. -/
def TableUnder (lib : Library) (name : String) (entries : List (String × Setting)) : Prop :=
  ∃ entry ∈ entries, lib.lower entry.1 = name ∧ entry.2.isTable = true

/-- Of two rows of values the last one counts. -/
theorem getLast?_filterMap_append {α β : Type} (f : α → Option β) (front back : List α) :
    ((front ++ back).filterMap f).getLast? =
      (back.filterMap f).getLast?.or (front.filterMap f).getLast? := by
  rw [List.filterMap_append, List.getLast?_append]

theorem getLast?_filterMap_cons {α β : Type} (f : α → Option β) (first : α) (rest : List α) :
    ((first :: rest).filterMap f).getLast? = (rest.filterMap f).getLast?.or (f first) := by
  have hfirst : ([first].filterMap f).getLast? = f first := by
    cases h : f first <;> simp [h]
  rw [← List.singleton_append, getLast?_filterMap_append, hfirst]

/-- What is found in a place is what was said of it, or a table or an array that was made of
it by what was said below. -/
def Agrees (below : Prop) (found said : Option Setting) : Prop :=
  found = said ∨ below ∧ ∃ value, found = some value ∧ value.isPlain = false

variable {below more : Prop} {found said : Option Setting}

theorem Agrees.mono (h : Agrees below found said) (hmore : below → more) :
    Agrees more found said :=
  h.imp_right fun ⟨hbelow, hvalue⟩ => ⟨hmore hbelow, hvalue⟩

theorem Agrees.hidden (hbelow : below) (h : value.isPlain = false) :
    Agrees below (some value) said :=
  .inr ⟨hbelow, value, rfl, h⟩

theorem Agrees.eq (h : Agrees below found said) (hbelow : ¬ below) : found = said :=
  h.resolve_right fun ⟨hb, _⟩ => hbelow hb

/-! ### Entries one after the other -/

section

variable {lib : Library} {changed : Setting}

theorem isTable_insertAll? (hmerges : lib.Merges) (h : target.isTable = true)
    (hchanged : lib.insertAll? target entries = some changed) : changed.isTable = true := by
  induction entries generalizing target with
  | nil =>
    cases hchanged
    exact h
  | cons entry rest ih =>
    obtain ⟨next, hnext, hrest⟩ := Option.bind_eq_some_iff.1 hchanged
    exact ih (hmerges.isTable hnext) hrest

theorem isTable_insertAll?_cons (hmerges : lib.Merges) {entry : String × Setting}
    (hchanged : lib.insertAll? target (entry :: entries) = some changed) :
    changed.isTable = true := by
  obtain ⟨next, hnext, hrest⟩ := Option.bind_eq_some_iff.1 hchanged
  exact isTable_insertAll? hmerges (hmerges.isTable hnext) hrest

/-- **One entry more.** -/
theorem agrees_insert? (hmerges : lib.Merges) {other : String}
    (h : Agrees below (target.get? name) said)
    (hchanged : lib.insert? target [.name other] value = some changed) :
    Agrees (below ∨ lib.lower other = name ∧ value.isTable = true) (changed.get? name)
      ((saidBy? lib name (other, value)).or said) := by
  unfold saidBy?
  by_cases hname : lib.lower other = name
  · subst hname
    rw [if_pos rfl]
    cases htable : value.isTable with
    | false =>
      rw [hmerges.replaces hchanged htable, own?_eq_some htable]
      exact .inl rfl
    | true =>
      obtain ⟨entries, rfl⟩ := exists_of_isTable htable
      obtain ⟨inner, hinner, hfound⟩ := hmerges.merges hchanged
      rw [hfound]
      -- an empty table leaves what it finds
      cases entries with
      | cons entry rest =>
        exact .hidden (.inr ⟨rfl, rfl⟩)
          (isPlain_of_isTable (isTable_insertAll?_cons hmerges hinner))
      | nil =>
        cases hinner
        cases hold : target.get? (lib.lower other) with
        | none => exact .hidden (.inr ⟨rfl, rfl⟩) rfl
        | some old =>
          rw [hold] at h
          exact h.mono .inl
  · rw [if_neg hname, hmerges.others hchanged (Ne.symm hname), Option.none_or]
    exact h.mono .inl

/-- **The entries of a table, one after the other.** -/
theorem agrees_insertAll? (hmerges : lib.Merges) (h : Agrees below (target.get? name) said)
    (hchanged : lib.insertAll? target entries = some changed) :
    Agrees (below ∨ TableUnder lib name entries) (changed.get? name)
      ((said? lib name entries).or said) := by
  induction entries generalizing target below said with
  | nil =>
    cases hchanged
    exact h.mono .inl
  | cons entry rest ih =>
    obtain ⟨other, value⟩ := entry
    obtain ⟨next, hnext, hrest⟩ := Option.bind_eq_some_iff.1 hchanged
    have hsaid : (said? lib name ((other, value) :: rest)).or said =
        (said? lib name rest).or ((saidBy? lib name (other, value)).or said) := by
      unfold said?
      rw [getLast?_filterMap_cons, Option.or_assoc]
    rw [hsaid]
    refine (ih (agrees_insert? hmerges h hnext) hrest).mono ?_
    rintro ((hbelow | hhere) | ⟨later, hlater, hunder⟩)
    · exact .inl hbelow
    · exact .inr ⟨_, List.mem_cons_self, hhere⟩
    · exact .inr ⟨later, List.mem_cons_of_mem _ hlater, hunder⟩

/-- Where a path leads on, there is a table or an array afterwards. -/
theorem isPlain_insert? (hmerges : lib.Merges) {step : Step} {rest : List Step}
    (h : lib.insert? target (step :: rest) value = some changed) : changed.isPlain = false := by
  cases step with
  | name name => exact isPlain_of_isTable (hmerges.isTable h)
  | place index => exact hmerges.places h

end

end Setting
end ActionTree
