/-
# Settings in layers

The settings file and the environment are two layers. Each says something of some of the
settings, the file in its sections, the environment by variables such as
`DECISION_TREE_LOGGING__FILTER`. The layers are merged name by name, so that each setting is on
its own: it is what its variable says, else what the file says, else its default
(`Key.layered`). A section of which the environment says one thing keeps what the file says of
the others.

All this holds for every library that merges sources key by key. Putting a value into a table of
settings leaves in the place of each setting what was said of it last (`Key.Holds.insert?`), and
so does a whole layer (`Key.Holds.merge?`), as long as the sections stay tables
(`KeepsSections`). Most layers do no more than give sections values, one by one or several at
once (`Tidy`).

Key definitions: `Key`, `Key.given?`, `Key.variableText?`, `Key.layered`, `KeepsSections`,
`Key.Holds`, `Tidy`.
Key theorems: `Key.Holds.insert?`, `Key.Holds.merge?`, `Key.given?_assignments`.
-/
import Mathlib
import ActionTree.Proofs.Settings.Merging

namespace ActionTree
namespace Settings

open Setting (Step Agrees own? said? TableUnder)

/-- The settings, one by one. -/
inductive Key where
  | logFilter
  | ansi
  | logContext
  | pretty
  deriving DecidableEq

namespace Key

/-- The section that a setting is in. -/
def group : Key → String
  | logFilter | ansi => "logging"
  | logContext => "execution"
  | pretty => "output"

/-- The name of a setting in its section. -/
def name : Key → String
  | logFilter => "filter"
  | ansi => "ansi"
  | logContext => "log_context"
  | pretty => "pretty"

/-- The variable that sets a setting. -/
def variableName : Key → String
  | logFilter => "DECISION_TREE_LOGGING__FILTER"
  | ansi => "DECISION_TREE_LOGGING__ANSI"
  | logContext => "DECISION_TREE_EXECUTION__LOG_CONTEXT"
  | pretty => "DECISION_TREE_OUTPUT__PRETTY"

/-- The value of a setting of which nothing is said. -/
def missing : Key → Setting
  | logFilter => .text default.logFilter
  | ansi => .bool default.ansi
  | logContext => .bool default.logContext
  | pretty => .bool default.pretty

/-! ### What a layer says -/

/-- Whether a path leads to a setting. -/
def isAt (lib : Library) (key : Key) : List Step → Bool
  | [.name group, .name name] => lib.lower group = key.group && lib.lower name = key.name
  | _ => false

/-- What a value at a path says of a setting. -/
def saidAt? (lib : Library) (key : Key) : List Step → Setting → Option Setting
  | [.name group], value =>
    if lib.lower group = key.group then said? lib key.name value.entries else none
  | steps, value => if key.isAt lib steps then value.own? else none

/-- A value at a path says something below a setting, where nothing is read. -/
def Below (lib : Library) (key : Key) : List Step → Setting → Prop
  | [.name group], value =>
    lib.lower group = key.group ∧ TableUnder lib key.name value.entries
  | .name group :: .name name :: rest, value =>
    lib.lower group = key.group ∧ lib.lower name = key.name ∧ (rest = [] → value.isTable = true)
  | _, _ => False

/-- A value at a path leaves the section of a setting a table: in place of the section only a
table is put, and nothing at a place of it. -/
def KeepsGroup (lib : Library) (key : Key) : List Step → Setting → Prop
  | [.name group], value => lib.lower group = key.group → value.isTable = true
  | .name group :: .place _ :: _, _ => lib.lower group ≠ key.group
  | _, _ => True

section

variable (lib : Library) (key : Key)

/-- What a layer says of a setting: the last value that is given to it, in its section or by
its path. -/
def given? (layer : Layer) : Option Setting :=
  (layer.filterMap fun entry => key.saidAt? lib (lib.path entry.1) entry.2).getLast?

/-- Whether a variable sets a setting: the key that its name stands for leads there. -/
def isSetBy (variableName : String) : Bool :=
  match lib.key? variableRule variableName with
  | some name => key.isAt lib (lib.path name)
  | none => false

/-- The text of the variable that sets a setting, of several the last one. -/
def variableText? (environment : Environment) : Option String :=
  (environment.filterMap fun entry =>
    if key.isSetBy lib entry.1 then some entry.2 else none).getLast?

/-- **What counts of two layers**: the value of the variable, else that of the file, else the
default. -/
def layered (file : Layer) (environment : Environment) : Setting :=
  (((key.variableText? lib environment).map (lib.value variableRule)).or
    (key.given? lib file)).getD key.missing

end

end Key

/-- A layer leaves every section a table: it gives no section a value that is no table, and puts
nothing at a place of one as if it were an array. -/
def KeepsSections (lib : Library) (layer : Layer) : Prop :=
  ∀ entry ∈ layer, ∀ key : Key, key.KeepsGroup lib (lib.path entry.1) entry.2

/-! ### What is in the place of a setting -/

namespace Key

variable {lib : Library} {key : Key} {tree changed value : Setting} {said : Option Setting}
  {below more : Prop} {first : String} {steps rest : List Step}

/-- What a table of settings has in the place of a setting. -/
def at? (key : Key) (tree : Setting) : Option Setting :=
  (tree.get? key.group).bind (·.get? key.name)

/-- The section of a setting is a table, if there is one, and what is in the place of the
setting agrees with what was said of it. -/
structure Holds (key : Key) (below : Prop) (tree : Setting) (said : Option Setting) : Prop where
  isTable : ∀ group, tree.get? key.group = some group → group.isTable = true
  agrees : Agrees below (key.at? tree) said

theorem Holds.mono (h : key.Holds below tree said) (hmore : below → more) :
    key.Holds more tree said :=
  ⟨h.isTable, h.agrees.mono hmore⟩

/-- In place of a missing section may stand any value that does not have the setting. -/
theorem Holds.agrees_group (h : key.Holds below tree said) {base : Setting}
    (hbase : base.get? key.name = none) :
    Agrees below (((tree.get? key.group).getD base).get? key.name) said := by
  have hagrees := h.agrees
  rw [at?] at hagrees
  cases hgroup : tree.get? key.group with
  | none =>
    rw [hgroup] at hagrees
    rw [Option.getD_none, hbase]
    exact hagrees
  | some group =>
    rw [hgroup] at hagrees
    exact hagrees

theorem holds_of_group (group : Setting) (hgroup : changed.get? key.group = some group)
    (htable : group.isTable = true) (h : Agrees below (group.get? key.name) said) :
    key.Holds below changed said := by
  refine ⟨fun other hother => ?_, ?_⟩
  · rw [hgroup] at hother
    cases hother
    exact htable
  · rw [at?, hgroup]
    exact h

theorem holds_empty (key : Key) : key.Holds False (.table []) none :=
  ⟨nofun, .inl rfl⟩

theorem isAt_of_ne (h : lib.lower first ≠ key.group) :
    key.isAt lib (.name first :: rest) = false := by
  unfold isAt
  split
  · rename_i group name heq
    cases heq
    simp [h]
  · rfl

theorem saidAt?_of_ne (h : lib.lower first ≠ key.group) :
    key.saidAt? lib (.name first :: rest) value = none := by
  unfold saidAt?
  split
  · rename_i heq
    cases heq
    exact if_neg h
  · rw [isAt_of_ne h]
    rfl

/-- A table in place of the section is merged into it. -/
theorem Holds.insert?_section (h : key.Holds below tree said) (hmerges : lib.Merges)
    (hgroup : lib.lower first = key.group) (htable : value.isTable = true)
    (hchanged : lib.insert? tree [.name first] value = some changed) :
    key.Holds (below ∨ key.Below lib [.name first] value) changed
      ((key.saidAt? lib [.name first] value).or said) := by
  obtain ⟨entries, rfl⟩ := Setting.exists_of_isTable htable
  obtain ⟨inner, hinner, hfound⟩ := hmerges.merges hchanged
  rw [hgroup] at hinner hfound
  have hold : ((tree.get? key.group).getD (.table [])).isTable = true := by
    cases hgroup' : tree.get? key.group with
    | none => rfl
    | some group => exact h.isTable group hgroup'
  have hsaid : key.saidAt? lib [.name first] (.table entries) = said? lib key.name entries :=
    if_pos hgroup
  rw [hsaid]
  refine holds_of_group inner hfound (Setting.isTable_insertAll? hmerges hold hinner) ?_
  refine (Setting.agrees_insertAll? hmerges (h.agrees_group rfl) hinner).mono ?_
  exact Or.imp_right fun hunder => ⟨hgroup, hunder⟩

/-- A value at a path into the section replaces what its last name has, in the place of the
setting or in another one. -/
theorem Holds.insert?_inside {name : String} (h : key.Holds below tree said)
    (hmerges : lib.Merges) (hgroup : lib.lower first = key.group)
    (hchanged : lib.insert? tree (.name first :: .name name :: rest) value = some changed) :
    key.Holds (below ∨ key.Below lib (.name first :: .name name :: rest) value) changed
      ((key.saidAt? lib (.name first :: .name name :: rest) value).or said) := by
  have hold : Agrees below (((tree.get? key.group).getD .null).get? key.name) said :=
    h.agrees_group rfl
  obtain ⟨inner, hinner, hfound⟩ := hmerges.descends hchanged
  rw [hgroup] at hinner hfound
  cases rest with
  | nil =>
    have hsaid : key.saidAt? lib [.name first, .name name] value =
        Setting.saidBy? lib key.name (name, value) := by
      simp [saidAt?, isAt, Setting.saidBy?, hgroup]
    rw [hsaid]
    refine holds_of_group inner hfound (hmerges.isTable hinner) ?_
    refine (Setting.agrees_insert? hmerges hold hinner).mono ?_
    exact Or.imp_right fun hunder => ⟨hgroup, hunder.1, fun _ => hunder.2⟩
  | cons next rest =>
    have hsaid : key.saidAt? lib (.name first :: .name name :: next :: rest) value = none := rfl
    rw [hsaid, Option.none_or]
    refine holds_of_group inner hfound (hmerges.isTable hinner) ?_
    by_cases hname : lib.lower name = key.name
    · obtain ⟨deeper, hdeeper, hplace⟩ := hmerges.descends hinner
      rw [hname] at hplace
      rw [hplace]
      have hbelow : key.Below lib (.name first :: .name name :: next :: rest) value :=
        ⟨hgroup, hname, fun hnil => absurd hnil (List.cons_ne_nil _ _)⟩
      exact .hidden (.inr hbelow) (Setting.isPlain_insert? hmerges hdeeper)
    · rw [hmerges.others hinner (Ne.symm hname)]
      exact hold.mono .inl

/-- What is put elsewhere leaves the setting as it is. -/
theorem Holds.insert?_elsewhere (h : key.Holds below tree said) (hmerges : lib.Merges)
    (hgroup : lib.lower first ≠ key.group)
    (hchanged : lib.insert? tree (.name first :: rest) value = some changed) :
    key.Holds (below ∨ key.Below lib (.name first :: rest) value) changed
      ((key.saidAt? lib (.name first :: rest) value).or said) := by
  have hkept : changed.get? key.group = tree.get? key.group :=
    hmerges.others hchanged (Ne.symm hgroup)
  rw [saidAt?_of_ne hgroup, Option.none_or]
  refine ⟨fun group hfound => h.isTable group (hkept.symm.trans hfound), ?_⟩
  rw [at?, hkept]
  exact h.agrees.mono .inl

/-- **One value more.** -/
theorem Holds.insert? (h : key.Holds below tree said) (hmerges : lib.Merges)
    (hkeep : key.KeepsGroup lib (.name first :: rest) value)
    (hchanged : lib.insert? tree (.name first :: rest) value = some changed) :
    key.Holds (below ∨ key.Below lib (.name first :: rest) value) changed
      ((key.saidAt? lib (.name first :: rest) value).or said) := by
  by_cases hgroup : lib.lower first = key.group
  · cases rest with
    | nil => exact h.insert?_section hmerges hgroup (hkeep hgroup) hchanged
    | cons step rest =>
      cases step with
      | name name => exact h.insert?_inside hmerges hgroup hchanged
      | place index => exact absurd hgroup hkeep
  · exact h.insert?_elsewhere hmerges hgroup hchanged

/-- A layer says something below a setting. -/
def Hidden (lib : Library) (key : Key) (layer : Layer) : Prop :=
  ∃ entry ∈ layer, key.Below lib (lib.path entry.1) entry.2

/-- **A whole layer.** -/
theorem Holds.merge? {layer : Layer} (h : key.Holds below tree said) (hmerges : lib.Merges)
    (hkeep : KeepsSections lib layer) (hchanged : lib.merge? tree layer = some changed) :
    key.Holds (below ∨ key.Hidden lib layer) changed ((key.given? lib layer).or said) := by
  induction layer generalizing tree below said with
  | nil =>
    rw [hmerges.nil] at hchanged
    cases hchanged
    exact h.mono .inl
  | cons entry rest ih =>
    obtain ⟨text, value⟩ := entry
    rw [hmerges.cons] at hchanged
    obtain ⟨next, hnext, hrest⟩ := Option.bind_eq_some_iff.1 hchanged
    have hentry := hkeep (text, value) List.mem_cons_self key
    have hlater : KeepsSections lib rest := fun other hother =>
      hkeep other (List.mem_cons_of_mem _ hother)
    obtain ⟨first, path, hpath⟩ := hmerges.path_name text
    rw [hpath] at hnext hentry
    have hstep := ih (h.insert? hmerges hentry hnext) hlater hrest
    rw [← hpath, ← Option.or_assoc] at hstep
    rw [given?, Setting.getLast?_filterMap_cons]
    refine hstep.mono ?_
    rintro ((hbelow | hhere) | ⟨other, hother, hunder⟩)
    · exact .inl hbelow
    · exact .inr ⟨(text, value), List.mem_cons_self, hhere⟩
    · exact .inr ⟨other, List.mem_cons_of_mem _ hother, hunder⟩

end Key

/-! ### Layers that can be told from their entries -/

/-- An entry of a layer that has its place in every table, leaves the sections tables and says
nothing below a setting. -/
structure Tidy (lib : Library) (entry : String × Setting) : Prop where
  names : ∀ step ∈ lib.path entry.1, ∃ name, step = .name name
  keeps : ∀ key : Key, key.KeepsGroup lib (lib.path entry.1) entry.2
  notBelow : ∀ key : Key, ¬ key.Below lib (lib.path entry.1) entry.2

section

variable {lib : Library} {text group name : String} {value : Setting} {entries layer : Layer}

/-- A section with values in it. -/
theorem tidy_section (hpath : lib.path text = [.name group])
    (h : ∀ entry ∈ entries, entry.2.isTable = false) : Tidy lib (text, .table entries) := by
  refine ⟨?_, fun key => ?_, fun key => ?_⟩
  · rw [hpath]
    exact List.forall_mem_singleton.2 ⟨group, rfl⟩
  · rw [hpath]
    exact fun _ => rfl
  · rw [hpath]
    rintro ⟨-, entry, hentry, -, htable⟩
    rw [h entry hentry] at htable
    cases htable

/-- A value in a section. -/
theorem tidy_pair (hpath : lib.path text = [.name group, .name name])
    (h : value.isTable = false) : Tidy lib (text, value) := by
  refine ⟨?_, fun key => ?_, fun key => ?_⟩
  · rw [hpath]
    simp
  · rw [hpath]
    trivial
  · rw [hpath]
    rintro ⟨-, -, htable⟩
    rw [htable rfl] at h
    cases h

/-- Something under a name that is no section. -/
theorem tidy_elsewhere (hpath : lib.path text = [.name group])
    (h : ∀ key : Key, lib.lower group ≠ key.group) : Tidy lib (text, value) := by
  refine ⟨?_, fun key => ?_, fun key => ?_⟩
  · rw [hpath]
    exact List.forall_mem_singleton.2 ⟨group, rfl⟩
  · rw [hpath]
    exact fun hgroup => absurd hgroup (h key)
  · rw [hpath]
    exact fun hbelow => absurd hbelow.1 (h key)

theorem keepsSections_of_tidy (h : ∀ entry ∈ layer, Tidy lib entry) : KeepsSections lib layer :=
  fun entry hentry => (h entry hentry).keeps

theorem Key.not_hidden_of_tidy (h : ∀ entry ∈ layer, Tidy lib entry) (key : Key) :
    ¬ key.Hidden lib layer := by
  rintro ⟨entry, hentry, hbelow⟩
  exact (h entry hentry).notBelow key hbelow

theorem exists_merge? (hmerges : lib.Merges) (h : ∀ entry ∈ layer, Tidy lib entry)
    (tree : Setting) : ∃ changed, lib.merge? tree layer = some changed := by
  induction layer generalizing tree with
  | nil => exact ⟨tree, hmerges.nil tree⟩
  | cons entry rest ih =>
    obtain ⟨text, value⟩ := entry
    obtain ⟨next, hnext⟩ := hmerges.leads (h (text, value) List.mem_cons_self).names tree value
    obtain ⟨changed, hchanged⟩ := ih (fun other hother => h other (List.mem_cons_of_mem _ hother))
      next
    exact ⟨changed, by rw [hmerges.cons, hnext]; exact hchanged⟩

end

/-! ### The environment as a layer -/

section

variable {lib : Library} {key : Key} {environment : Environment} {file : Layer} {text : String}

/-- A variable says something of the setting that its path leads to, and of no other. -/
theorem Key.saidAt?_of_isPlain (key : Key) (steps : List Step) {value : Setting}
    (h : value.isPlain = true) :
    key.saidAt? lib steps value = if key.isAt lib steps then some value else none := by
  have htable := Setting.isTable_of_isPlain h
  have hentries : value.entries = [] := by
    cases value with
    | table entries => cases htable
    | _ => rfl
  unfold saidAt?
  split
  · rw [hentries]
    exact ite_self none
  · rw [Setting.own?_eq_some htable]

/-- **What the environment says of a setting is the value of its variable.** -/
theorem Key.given?_assignments (hnames : lib.Names) (key : Key) (environment : Environment) :
    key.given? lib (lib.assignments variableRule environment) =
      (key.variableText? lib environment).map (lib.value variableRule) := by
  unfold given? Library.assignments variableText?
  rw [List.filterMap_filterMap, ← List.getLast?_map, List.map_filterMap]
  congr 2
  funext entry
  obtain ⟨variableName, text⟩ := entry
  have hplain := hnames.isPlain text
  cases hkey : lib.key? variableRule variableName with
  | none => simp [isSetBy, hkey]
  | some name => cases hat : key.isAt lib (lib.path name) <;>
      simp [isSetBy, hkey, saidAt?_of_isPlain key _ hplain, hat]

theorem Key.isName_group (key : Key) : isName key.group = true := by
  cases key <;> decide

theorem Key.isName_name (key : Key) : isName key.name = true := by
  cases key <;> decide

theorem Key.lower_group (hnames : lib.Names) (key : Key) : lib.lower key.group = key.group := by
  rw [hnames.lower key.isName_group]
  cases key <;> cbv

theorem Key.lower_name (hnames : lib.Names) (key : Key) : lib.lower key.name = key.name := by
  rw [hnames.lower key.isName_name]
  cases key <;> cbv

theorem Key.isSetBy_variableName (hnames : lib.Names) (key : Key) :
    key.isSetBy lib key.variableName = true := by
  have hvariable : isName key.variableName = true := by cases key <;> decide
  have hkey : variableRule.key? key.variableName = some (key.group ++ "." ++ key.name) := by
    cases key <;> cbv
  rw [isSetBy, hnames.key? hvariable, hkey]
  simp only [hnames.pair key.isName_group key.isName_name, isAt, key.lower_group hnames,
    key.lower_name hnames, decide_true, Bool.and_self]

theorem Key.variableText?_eq_none (h : ∀ entry ∈ environment, key.isSetBy lib entry.1 = false) :
    key.variableText? lib environment = none := by
  have hnone : environment.filterMap (fun entry =>
      if key.isSetBy lib entry.1 then some entry.2 else none) = [] :=
    List.filterMap_eq_nil_iff.2 fun entry hentry => by rw [h entry hentry]; rfl
  rw [variableText?, hnone]
  rfl

theorem Key.variableText?_eq_some {variableName : String}
    (hset : key.isSetBy lib variableName = true) (h : (variableName, text) ∈ environment)
    (hall : ∀ entry ∈ environment, key.isSetBy lib entry.1 = true → entry.2 = text) :
    key.variableText? lib environment = some text := by
  have hmem : text ∈ environment.filterMap fun entry =>
      if key.isSetBy lib entry.1 then some entry.2 else none :=
    List.mem_filterMap.2 ⟨_, h, if_pos hset⟩
  have hsame : ∀ other ∈ environment.filterMap (fun entry =>
      if key.isSetBy lib entry.1 then some entry.2 else none), other = text := by
    intro other hother
    obtain ⟨entry, hentry, hfound⟩ := List.mem_filterMap.1 hother
    by_cases hkey : key.isSetBy lib entry.1 = true
    · rw [if_pos hkey] at hfound
      cases hfound
      exact hall entry hentry hkey
    · rw [if_neg hkey] at hfound
      cases hfound
  unfold variableText?
  rw [List.getLast?_eq_some_getLast (List.ne_nil_of_mem hmem)]
  exact congrArg some (hsame _ (List.getLast_mem _))

/-- A setting whose variable is set has its value. -/
theorem layered_of_variable (hnames : lib.Names) (h : (key.variableName, text) ∈ environment)
    (hall : ∀ entry ∈ environment, key.isSetBy lib entry.1 = true → entry.2 = text) :
    key.layered lib file environment = lib.value variableRule text := by
  unfold Key.layered
  rw [Key.variableText?_eq_some (key.isSetBy_variableName hnames) h hall]
  rfl

/-- A setting whose variable is not set has its value in the file. -/
theorem layered_of_unset (h : ∀ entry ∈ environment, key.isSetBy lib entry.1 = false) :
    key.layered lib file environment = (key.given? lib file).getD key.missing := by
  unfold Key.layered
  rw [Key.variableText?_eq_none h]
  rfl

end

end Settings
end ActionTree
