/-
# The standard library keeps to the laws

What the results on settings need of a library holds of the one that the program runs with.

Key theorems: `Library.merges_standard`, `Library.names_standard`, `Library.converts_standard`,
`Library.finds_standard`, `Library.parses_standard`, `Library.displays_standard`.
-/
import ActionTree.Proofs.Expr.Scanning
import ActionTree.Proofs.Settings.Merging

namespace ActionTree

open Grammar (Avoids avoids_nil avoids_cons takeWhile_append_of_avoids
  dropWhile_append_of_avoids)

/-! ### Merging -/

namespace Setting

variable {target value changed : Setting} {name key : String} {entries : Settings.Layer}

theorem insert_table (target : Setting) (name : String) (entries : Settings.Layer) :
    target.insert name (table entries) =
      target.put name (((target.get? name.toLower).getD (table [])).insertAll entries) := by
  rw [insert]

theorem insert_eq_put (target : Setting) (name : String) (h : value.isTable = false) :
    target.insert name value = target.put name value := by
  cases value with
  | table entries => cases h
  | _ => rw [insert]; nofun

/-- Giving a name a value leaves a table, in which only this name has changed. -/
theorem exists_insert_eq_put (target : Setting) (name : String) (value : Setting) :
    ∃ put, target.insert name value = target.put name put := by
  cases h : value.isTable with
  | true =>
    obtain ⟨entries, rfl⟩ := exists_of_isTable h
    exact ⟨_, insert_table target name entries⟩
  | false => exact ⟨value, insert_eq_put target name h⟩

theorem insertAt?_name (target : Setting) (name : String) (step : Step) (rest : List Step)
    (value : Setting) : target.insertAt? (.name name :: step :: rest) value =
      (((target.get? name.toLower).getD null).insertAt? (step :: rest) value).map
        (target.put name) := by
  rw [insertAt?]
  · cases ((target.get? name.toLower).getD null).insertAt? (step :: rest) value <;> rfl
  · nofun

/-- A path that begins with a name changes only this name. -/
theorem exists_put_of_insertAt? {rest : List Step}
    (h : target.insertAt? (.name name :: rest) value = some changed) :
    ∃ put, changed = target.put name put := by
  cases rest with
  | nil =>
    rw [insertAt?] at h
    cases h
    exact exists_insert_eq_put target name value
  | cons step rest =>
    rw [insertAt?_name] at h
    obtain ⟨put, -, rfl⟩ := Option.map_eq_some_iff.1 h
    exact ⟨put, rfl⟩

/-- A path of names leads to a place in every table. -/
theorem exists_insertAt? {steps : List Step} (h : ∀ step ∈ steps, ∃ name, step = .name name)
    (target value : Setting) : ∃ changed, target.insertAt? steps value = some changed := by
  induction steps generalizing target with
  | nil => exact ⟨value, rfl⟩
  | cons step rest ih =>
    obtain ⟨name, rfl⟩ := h step List.mem_cons_self
    cases rest with
    | nil => exact ⟨target.insert name value, rfl⟩
    | cons next rest =>
      obtain ⟨inner, hinner⟩ := ih (fun other hother => h other (List.mem_cons_of_mem _ hother))
        ((target.get? name.toLower).getD .null)
      exact ⟨target.put name inner, by rw [insertAt?_name, hinner]; rfl⟩

theorem insertAll?_standard (target : Setting) (entries : Settings.Layer) :
    Settings.Library.standard.insertAll? target entries = some (target.insertAll entries) := by
  induction entries generalizing target with
  | nil => rw [insertAll]; rfl
  | cons entry rest ih =>
    obtain ⟨name, value⟩ := entry
    rw [insertAll]
    exact ih (target.insert name value)

/-! ### Paths -/

/-- What a path begins with is a name. -/
theorem exists_scanName? {text rest : List Char} {first : Step}
    (h : scanName? text = some (first, rest)) : ∃ name, first = .name name := by
  unfold scanName? at h
  by_cases hempty : (text.takeWhile isNameChar).isEmpty = true
  · simp [hempty] at h
  · simp only [hempty, Bool.false_eq_true, ↓reduceIte, Option.some.injEq, Prod.mk.injEq] at h
    exact ⟨_, h.1.symm⟩

theorem exists_path (text : String) : ∃ name rest, path text = .name name :: rest := by
  simp only [path, Option.bind_eq_bind]
  cases h : scanName? text.toList with
  | none => exact ⟨text, [], rfl⟩
  | some found =>
    obtain ⟨first, rest⟩ := found
    obtain ⟨name, rfl⟩ := exists_scanName? h
    rw [Option.bind_some]
    cases scanSteps? rest.length rest with
    | none => exact ⟨text, [], rfl⟩
    | some steps => exact ⟨name, steps, rfl⟩

/-- A name is read up to what cannot stand in names. -/
theorem scanName?_append (h : Settings.isName name = true) {rest : List Char}
    (hrest : Avoids isNameChar rest) :
    scanName? (name.toList ++ rest) = some (.name name, rest) := by
  obtain ⟨hempty, hchars⟩ := Bool.and_eq_true_iff.1 h
  have hname : ∀ c ∈ name.toList, isNameChar c = true := by
    intro c hc
    have hc' := List.all_eq_true.1 hchars c hc
    simp only [Bool.or_eq_true, decide_eq_true_eq] at hc'
    rcases hc' with hc' | hc' <;> simp [isNameChar, hc']
  have hne : name.toList.isEmpty = false := by
    cases hlist : name.toList with
    | nil => simp [String.toList_eq_nil_iff.1 hlist] at hempty
    | cons c rest => rfl
  unfold scanName?
  simp only [takeWhile_append_of_avoids hname hrest, dropWhile_append_of_avoids hname hrest, hne,
    Bool.false_eq_true, if_false, String.ofList_toList]

theorem path_single (h : Settings.isName name = true) : path name = [.name name] := by
  have hscan := scanName?_append h (avoids_nil _)
  rw [List.append_nil] at hscan
  simp only [path, hscan, Option.bind_eq_bind, Option.bind_some]
  rfl

theorem path_pair {group : String} (h : Settings.isName group = true)
    (h' : Settings.isName name = true) :
    path (group ++ "." ++ name) = [.name group, .name name] := by
  have htext : (group ++ "." ++ name).toList = group.toList ++ '.' :: name.toList := by simp
  have hpoint : Avoids isNameChar ('.' :: name.toList) := avoids_cons (by decide) _
  have hgroup := scanName?_append h hpoint
  have hname := scanName?_append h' (avoids_nil _)
  rw [List.append_nil] at hname
  simp only [path, htext, hgroup, Option.bind_eq_bind, Option.bind_some, List.length_cons,
    scanSteps?, if_pos, hname]
  rfl

end Setting

namespace Settings

/-! ### Files -/

variable {files others : Files} {name path content : String}

/-- Where only one of several has an answer, it is the first that has one. -/
theorem findSome?_of_only {α β : Type} {f : α → Option β} {row : List α} {item : α} {value : β}
    (h : item ∈ row) (hitem : f item = some value)
    (hothers : ∀ other ∈ row, other ≠ item → f other = none) : row.findSome? f = some value := by
  induction row with
  | nil => cases h
  | cons first rest ih =>
    rw [List.findSome?_cons]
    by_cases hfirst : first = item
    · rw [hfirst, hitem]
    · rw [hothers first List.mem_cons_self hfirst]
      refine ih ((List.mem_cons.1 h).resolve_left (Ne.symm hfirst)) fun other hother => ?_
      exact hothers other (List.mem_cons_of_mem _ hother)

theorem findSome?_congr {α β : Type} {f g : α → Option β} {row : List α}
    (h : ∀ item ∈ row, f item = g item) : row.findSome? f = row.findSome? g := by
  induction row with
  | nil => rfl
  | cons item rest ih =>
    have hrest := ih fun other hother => h other (List.mem_cons_of_mem _ hother)
    rw [List.findSome?_cons, List.findSome?_cons, h item List.mem_cons_self, hrest]

/-- A name leads to the same file wherever the same stands at it, with and without an
extension. -/
theorem found_congr (h : ∀ path ∈ name :: candidates name, others path = files path) :
    found others name = found files name := by
  have hcandidates : (candidates name).findSome? (fun path =>
        (others path).content?.map fun content => foundAt path content) =
      (candidates name).findSome? fun path =>
        (files path).content?.map fun content => foundAt path content :=
    findSome?_congr fun path hpath => by rw [h path (List.mem_cons_of_mem _ hpath)]
  unfold found
  rw [h name List.mem_cons_self, hcandidates]

/-- Where there is no text under the name itself, the first one at its places counts. -/
theorem found_of_content?_eq_none (h : (files name).content? = none) : found files name =
    ((candidates name).findSome? fun path =>
      (files path).content?.map fun content => foundAt path content).getD .nothing := by
  unfold found
  cases hentry : files name with
  | text other =>
    rw [hentry] at h
    cases h
  | _ => rfl

theorem found_nothing (h : ∀ path ∈ name :: candidates name, files path = .absent) :
    found files name = .nothing := by
  have hcontent (path : String) (hpath : path ∈ name :: candidates name) :
      (files path).content? = none := by
    rw [h path hpath]
    rfl
  rw [found_of_content?_eq_none (hcontent name List.mem_cons_self), List.findSome?_eq_none_iff.2]
  · rfl
  · intro path hpath
    rw [hcontent path (List.mem_cons_of_mem _ hpath)]
    rfl

theorem foundAt_json {fields : Fields Json} (hpath : Files.extension? path = some "json")
    (hcontent : Json.ofText? content = some (.obj fields)) :
    foundAt path content = .holds (Setting.ofFields fields) := by
  have hformat : Format.ofPath? path = some .json := by
    rw [Format.ofPath?, hpath]
    rfl
  have hvalue : Format.json.valueOf? content = some (.table (Setting.ofFields fields)) := by
    rw [Format.valueOf?, hcontent]
    rfl
  rw [foundAt, hformat]
  simp only [Format.read, hvalue]

theorem found_of_isAt (h : Library.standard.IsAt files name path)
    (hpath : files path = .text content) : found files name = foundAt path content := by
  rcases h with rfl | ⟨hname, hplace, hothers⟩
  · unfold found
    rw [hpath]
  · rw [found_of_content?_eq_none hname]
    refine (congrArg (Option.getD · Found.nothing) (findSome?_of_only hplace ?_ ?_)).trans rfl
    · rw [hpath]
      rfl
    · intro other hother hne
      rw [hothers other hother hne]
      rfl

/-! ### The laws -/

namespace Library

theorem merges_standard : standard.Merges where
  nil _ := rfl
  cons _ _ _ _ := rfl
  path_name := Setting.exists_path
  isTable h := by
    obtain ⟨put, rfl⟩ := Setting.exists_put_of_insertAt? h
    rfl
  others {target _ _ _ _ _} h hne := by
    obtain ⟨put, rfl⟩ := Setting.exists_put_of_insertAt? h
    exact Setting.get?_put_of_ne target put hne
  replaces {target value _ name} h htable := by
    have hput : some (target.insert name value) = _ := h
    rw [Setting.insert_eq_put target name htable] at hput
    cases hput
    exact Setting.get?_put_self target name value
  merges {target _ name entries} h := by
    have hput : some (target.insert name (.table entries)) = _ := h
    rw [Setting.insert_table] at hput
    cases hput
    exact ⟨_, Setting.insertAll?_standard _ entries, Setting.get?_put_self _ _ _⟩
  descends {target value _ name step rest} h := by
    have hput : target.insertAt? (.name name :: step :: rest) value = _ := h
    rw [Setting.insertAt?_name] at hput
    obtain ⟨inner, hinner, rfl⟩ := Option.map_eq_some_iff.1 hput
    exact ⟨inner, hinner, Setting.get?_put_self _ _ _⟩
  places {target value _ index rest} h := by
    have hput : target.insertAt? (.place index :: rest) value = _ := h
    rw [Setting.insertAt?] at hput
    obtain ⟨place, -, hput⟩ := Option.bind_eq_some_iff.1 hput
    obtain ⟨inner, -, hput⟩ := Option.bind_eq_some_iff.1 hput
    cases hput
    rfl
  leads := Setting.exists_insertAt?

theorem isPlain_ofVariable (text : String) : (ofVariable text).isPlain = true := by
  unfold ofVariable
  repeat' split
  all_goals rfl

theorem names_standard : standard.Names where
  single := Setting.path_single
  pair := Setting.path_pair
  lower _ := rfl
  key? _ := rfl
  isPlain := isPlain_ofVariable

theorem converts_standard : standard.Converts where
  text _ := rfl
  bool _ := rfl
  plain_of_asText? {value _} h := by
    cases value with
    | null | array | table => cases h
    | _ => rfl
  plain_of_asBool? {value _} h := by
    cases value with
    | null | array | table => cases h
    | _ => rfl

theorem finds_standard : standard.Finds where
  congr := found_congr
  nothing := found_nothing
  json h hextension hpath hcontent :=
    (found_of_isAt h hpath).trans (foundAt_json hextension hcontent)

theorem parses_standard : standard.Parses where
  value _ := rfl

theorem displays_standard : standard.Displays where
  bool b := by cases b <;> rfl
  int _ := rfl
  float _ := rfl
  text _ := rfl

end Library
end Settings
end ActionTree
