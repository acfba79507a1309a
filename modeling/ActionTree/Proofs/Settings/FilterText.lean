/-
# The log filter from each source

The log filter can be given in a settings file, by a variable or as an override. A file and an
override give it as it is, whatever text it is (`load_of_document`, `load_of_override`). A
variable gives the text of the value that it is read as (`load_of_variable`), since what looks
like a truth value or a number is read as one: `DECISION_TREE_LOGGING__FILTER=TRUE` gives the
filter `true` (`not_load_from_sources`). A text is given as it is if it is read as nothing else,
or if it is what its value is written as (`shown_eq_iff`).

Key definitions: `shown`, `OfFilter`, `ReadsJson`, `filterDocument`.
Key theorems: `shown_eq_iff`, `numberText_of_shown`, `load_of_filter`, `load_from_sources`,
`not_load_from_sources`.
-/
import ActionTree.Proofs.Json
import ActionTree.Proofs.Numerals
import ActionTree.Proofs.Settings.Loading

namespace ActionTree
namespace Settings

open Grammar (Digits Sign)

/-! ### Texts that variables give -/

/-- A sign, which may be left out, and digits are read as the integer that they denote, if
they are read as one. -/
theorem eq_of_integer?_append {sign digits : List Char} {n : Int} (hsign : Sign sign)
    (hdigits : Digits digits) (h : integer? (sign ++ digits) = some n) :
    n = Decimal.signedExponent (decide (sign = ['-'])) digits := by
  have hscan := hsign.scan hdigits []
  rw [List.append_nil] at hscan
  have hread : (digits.isEmpty || !digits.all Char.isDigit) = false := by
    simp [hdigits.1, List.all_eq_true.2 hdigits.2]
  simp only [integer?, hscan, hread, Bool.false_eq_true, if_false] at h
  split at h
  · exact (Option.some.inj h).symm
  · cases h

/-- **The integers that are written again as they were.** -/
theorem integerText_eq_iff {text : List Char} {n : Int} (h : integer? text = some n) :
    (Value.integerText n).toList = text ↔ Decimal.IntegerText text := by
  refine ⟨fun htext => htext ▸ Value.integerText_spec n, fun hinteger => ?_⟩
  cases hinteger with
  | whole hplain =>
    have hn : n = Decimal.ofDigits text := eq_of_integer?_append .absent hplain.1 h
    rw [hn, Value.integerText_ofNat, Decimal.toDigits_ofDigits hplain]
  | @negative digits hplain hzero =>
    have hn : n = -(Decimal.ofDigits digits : Int) := eq_of_integer?_append .minus hplain.1 h
    rw [hn, Value.integerText_neg (Decimal.ofDigits_pos hplain hzero),
      Decimal.toDigits_ofDigits hplain]

/-- The text that a variable gives a setting that is a text. -/
def shown (text : String) : String :=
  (ofVariable text).asText?.getD text

theorem asText?_ofVariable (text : String) : (ofVariable text).asText? = some (shown text) := by
  unfold shown ofVariable
  repeat' split
  all_goals rfl

/-- A library that displays values as the language does gives each the text that it has. -/
theorem Library.Displays.asText?_eq {lib : Library} (hdisplays : lib.Displays) {value : Setting}
    {text : String} (h : value.asText? = some text) : lib.asText? value = some text := by
  rw [← h]
  cases value with
  | bool b =>
    rw [hdisplays.bool]
    cases b <;> rfl
  | int n => exact hdisplays.int n
  | float x => exact hdisplays.float x
  | text other => exact hdisplays.text other
  | null | array | table => cases h

section

variable {text : String} {n : Int} {x : Float}

theorem shown_of_asText? {other : String} (h : (ofVariable text).asText? = some other) :
    shown text = other := by
  rw [shown, h, Option.getD_some]

theorem shown_of_int (h : ofVariable text = .int n) : shown text = Value.integerText n :=
  shown_of_asText? (by rw [h]; rfl)

theorem shown_of_float (h : ofVariable text = .float x) : shown text = Setting.layout.render x :=
  shown_of_asText? (by rw [h]; rfl)

theorem integer?_of_ofVariable (h : ofVariable text = .int n) : integer? text.toList = some n := by
  unfold ofVariable at h
  split at h
  · cases h
  · split at h
    · cases h
    · split at h
      · rename_i hread
        cases h
        exact hread
      · split at h <;> cases h

/-- **The texts that a variable gives as they are**: the words for true and false in lower case,
integers and numbers as they are written, and whatever is read as none of these. -/
theorem shown_eq_iff (text : String) : shown text = text ↔
    text = "true" ∨ text = "false" ∨
    (∃ n, ofVariable text = .int n ∧ Decimal.IntegerText text.toList) ∨
    (∃ x, ofVariable text = .float x ∧ Setting.layout.render x = text) ∨
    ofVariable text = .text text := by
  constructor
  · intro h
    have hshown := asText?_ofVariable text
    rw [h] at hshown
    cases hvalue : ofVariable text with
    | bool value =>
      rw [hvalue] at hshown
      cases value with
      | true => exact .inl (Option.some.inj hshown).symm
      | false => exact .inr (.inl (Option.some.inj hshown).symm)
    | int n =>
      rw [shown_of_int hvalue] at h
      have hinteger := (integerText_eq_iff (integer?_of_ofVariable hvalue)).1
        (congrArg String.toList h)
      exact .inr (.inr (.inl ⟨n, rfl, hinteger⟩))
    | float x =>
      rw [shown_of_float hvalue] at h
      exact .inr (.inr (.inr (.inl ⟨x, rfl, h⟩)))
    | text s =>
      rw [hvalue] at hshown
      have hs : s = text := Option.some.inj hshown
      exact .inr (.inr (.inr (.inr (congrArg Setting.text hs))))
    | null | array | table =>
      rw [hvalue] at hshown
      cases hshown
  · rintro (rfl | rfl | ⟨n, hvalue, hinteger⟩ | ⟨x, hvalue, hrender⟩ | hvalue)
    · cbv
    · cbv
    · have htext := (integerText_eq_iff (integer?_of_ofVariable hvalue)).2 hinteger
      rw [shown_of_int hvalue]
      exact String.toList_inj.1 htext
    · rw [shown_of_float hvalue, hrender]
    · exact shown_of_asText? (by rw [hvalue]; rfl)

/-- **No number with an exponent, a plus or a needless zero is given as it is.** -/
theorem numberText_of_shown (hvalue : ofVariable text = .float x) (h : shown text = text) :
    Decimal.NumberText text.toList := by
  rw [shown_of_float hvalue] at h
  rw [← h]
  exact Decimal.numberText_render rfl rfl x

end

/-! ### Layers that say nothing but the log filter -/

/-- An entry of a layer that is for the log filter, if it is for any setting. -/
structure OfFilter (lib : Library) (entry : String × Setting) : Prop where
  tidy : Tidy lib entry
  others : ∀ key : Key, key ≠ .logFilter → key.saidAt? lib (lib.path entry.1) entry.2 = none

variable {lib : Library} {files : Files} {environment : Environment}
  {path override : Option String} {file layer : Layer} {content v : String}

theorem given?_eq_none (h : ∀ entry ∈ layer, OfFilter lib entry) {key : Key}
    (hkey : key ≠ .logFilter) : key.given? lib layer = none := by
  have hnone : layer.filterMap (fun entry => key.saidAt? lib (lib.path entry.1) entry.2) = [] :=
    List.filterMap_eq_nil_iff.2 fun entry hentry => (h entry hentry).others key hkey
  rw [Key.given?, hnone]
  rfl

/-- **If nothing but the log filter is said, nothing else is set.** -/
theorem load_of_filter (hmerges : lib.Merges) (hnames : lib.Names) (hconverts : lib.Converts)
    (hfile : fileLayer lib files (chosenPath? environment path) = .ok file)
    (hentries : ∀ entry ∈ file, OfFilter lib entry)
    (hvariables : ∀ entry ∈ lib.assignments variableRule environment, OfFilter lib entry)
    (hfilter : lib.asText? (Key.logFilter.layered lib file environment) = some v) :
    load lib files environment path override =
      .ok { default with logFilter := override.getD v } := by
  have hmissing (key : Key) (hkey : key ≠ .logFilter) :
      key.layered lib file environment = key.missing := by
    rw [Key.layered, ← Key.given?_assignments hnames, given?_eq_none hvariables hkey,
      given?_eq_none hentries hkey]
    rfl
  have hvalues : ofValues? lib (fun key => key.layered lib file environment) =
      some { default with logFilter := v } := by
    refine ofValues?_eq_some_iff.2 ⟨hfilter, ?_, ?_, ?_⟩
    · rw [hmissing .ansi (by decide)]
      exact hconverts.bool default.ansi
    · rw [hmissing .logContext (by decide)]
      exact hconverts.bool default.logContext
    · rw [hmissing .pretty (by decide)]
      exact hconverts.bool default.pretty
  exact load_of_tidy hmerges hnames hconverts hfile
    (fun entry hentry => (hentries entry hentry).tidy)
    (fun entry hentry => (hvariables entry hentry).tidy) hvalues

/-! ### What may say it -/

/-- A section with the log filter says something of the log filter alone. -/
theorem Key.saidAt?_section (hnames : lib.Names) (key : Key) (v : String) :
    key.saidAt? lib [.name "logging"] (.table [("filter", .text v)]) =
      if key = .logFilter then some (.text v) else none := by
  have hgroup : lib.lower "logging" = "logging" := Key.logFilter.lower_group hnames
  have hname : lib.lower "filter" = "filter" := Key.logFilter.lower_name hnames
  cases key <;>
    simp [saidAt?, Setting.said?, Setting.saidBy?, Setting.entries, Setting.own?, group, name,
      hgroup, hname]

/-- The path of the log filter leads to no other setting. -/
theorem Key.isAt_filter (hnames : lib.Names) (key : Key) :
    key.isAt lib [.name "logging", .name "filter"] = decide (key = .logFilter) := by
  have hgroup : lib.lower "logging" = "logging" := Key.logFilter.lower_group hnames
  have hname : lib.lower "filter" = "filter" := Key.logFilter.lower_name hnames
  cases key <;> simp [isAt, group, name, hgroup, hname]

/-- The section in a settings file. -/
theorem ofFilter_section (hnames : lib.Names) (v : String) :
    OfFilter lib ("logging", .table [("filter", .text v)]) := by
  have hpath : lib.path "logging" = [.name "logging"] := hnames.single (by decide)
  refine ⟨tidy_section hpath (List.forall_mem_singleton.2 rfl), fun key hkey => ?_⟩
  rw [hpath, key.saidAt?_section hnames, if_neg hkey]

theorem path_filter (hnames : lib.Names) :
    lib.path "logging.filter" = [.name "logging", .name "filter"] :=
  (congrArg lib.path (by decide : "logging.filter" = "logging" ++ "." ++ "filter")).trans
    (hnames.pair (by decide) (by decide))

/-- The variable of the log filter. -/
theorem ofFilter_variable (hnames : lib.Names) (text : String) :
    OfFilter lib ("logging.filter", lib.value variableRule text) := by
  have hpath := path_filter hnames
  have hplain := hnames.isPlain text
  refine ⟨tidy_pair hpath (Setting.isTable_of_isPlain hplain), fun key hkey => ?_⟩
  rw [Key.saidAt?_of_isPlain key _ hplain, hpath, key.isAt_filter hnames, decide_eq_false hkey]
  rfl

/-- The variable that names a settings file. -/
theorem ofFilter_configPath (hnames : lib.Names) (text : String) :
    OfFilter lib ("config_path", lib.value variableRule text) := by
  have hpath : lib.path "config_path" = [.name "config_path"] := hnames.single (by decide)
  have hlower : lib.lower "config_path" = "config_path" :=
    (hnames.lower (by decide)).trans (by cbv)
  have hgroup (key : Key) : lib.lower "config_path" ≠ key.group := by
    rw [hlower]
    cases key <;> decide
  refine ⟨tidy_elsewhere hpath hgroup, fun key _ => ?_⟩
  rw [hpath]
  exact Key.saidAt?_of_ne (hgroup key)

theorem key?_pathVariable (hnames : lib.Names) :
    lib.key? variableRule pathVariable = some "config_path" := by
  rw [hnames.key? (by decide)]
  cbv

theorem key?_filter (hnames : lib.Names) :
    lib.key? variableRule Key.logFilter.variableName = some "logging.filter" := by
  rw [hnames.key? (by decide)]
  cbv

theorem ofFilter_assignments (hnames : lib.Names)
    (h : ∀ entry ∈ environment, lib.key? variableRule entry.1 = none ∨
      entry.1 = pathVariable ∨ entry.1 = Key.logFilter.variableName) :
    ∀ entry ∈ lib.assignments variableRule environment, OfFilter lib entry := by
  intro assigned hassigned
  obtain ⟨⟨name, text⟩, hentry, hfound⟩ := List.mem_filterMap.1 hassigned
  have hassign : (lib.key? variableRule name).map
      (fun key => (key, lib.value variableRule text)) = some assigned := hfound
  have hname : lib.key? variableRule name = none ∨ name = pathVariable ∨
    name = Key.logFilter.variableName := h _ hentry
  rcases hname with hnone | rfl | rfl
  · rw [hnone] at hassign
    cases hassign
  · rw [key?_pathVariable hnames] at hassign
    cases hassign
    exact ofFilter_configPath hnames text
  · rw [key?_filter hnames] at hassign
    cases hassign
    exact ofFilter_variable hnames text

/-! ### The settings file -/

/-- The settings file is a JSON file with a text: the file that is chosen, or the default file. -/
def ReadsJson (lib : Library) (files : Files) (content : String) (chosen : Option String) : Prop :=
  (∀ name ∈ chosen, files name ≠ .absent) ∧
    ∃ path, lib.IsAt files (chosen.getD defaultFile) path ∧
      Files.extension? path = some "json" ∧ files path = .text content

theorem ReadsJson.fileLayer (hfinds : lib.Finds) {chosen : Option String}
    {fields : List (String × Json)} (h : ReadsJson lib files content chosen)
    (hcontent : Json.ofText? content = some (.obj fields)) :
    fileLayer lib files chosen = .ok (Setting.ofFields fields) := by
  obtain ⟨hpresent, path, hat, hextension, hpath⟩ := h
  have hfound := hfinds.json hat hextension hpath hcontent
  cases chosen with
  | none =>
    rw [Option.getD_none] at hfound
    rw [Settings.fileLayer, hfound]
  | some name =>
    rw [Option.getD_some] at hfound
    rw [Settings.fileLayer, if_neg (hpresent name rfl), hfound]

/-- There is no default settings file, in any format. -/
def NoFile (lib : Library) (files : Files) : Prop :=
  ∀ path ∈ defaultFile :: lib.places defaultFile, files path = .absent

/-- Without a default file and a variable that names a file there is no settings file. -/
theorem fileLayer_none (hnames : lib.Names) (hfinds : lib.Finds) (hfile : NoFile lib files)
    (h : ∀ entry ∈ environment, lib.key? variableRule entry.1 ≠ some "config_path") :
    fileLayer lib files (chosenPath? environment none) = .ok [] := by
  have hpath : environment.value? pathVariable = none := by
    refine List.lookup_eq_none_iff.2 fun entry hentry => bne_iff_ne.2 fun hname => ?_
    refine h entry hentry ?_
    rw [← hname, key?_pathVariable hnames]
  rw [chosenPath?, Option.none_or, hpath, fileLayer, hfinds.nothing hfile]

theorem Key.isSetBy_eq_false {key : Key} {name : String}
    (h : lib.key? variableRule name = none) : key.isSetBy lib name = false := by
  rw [isSetBy, h]

theorem Key.isSetBy_pathVariable (hnames : lib.Names) (key : Key) :
    key.isSetBy lib pathVariable = false := by
  rw [isSetBy, key?_pathVariable hnames]
  simp only [hnames.single (by decide : isName "config_path" = true)]
  rfl

/-! ### The three sources -/

/-- A settings file that gives the log filter. -/
def filterDocument (v : String) : Json :=
  .obj [("logging", .obj [("filter", .str v)])]

section

variable (hmerges : lib.Merges) (hnames : lib.Names) (hconverts : lib.Converts)
  (hfinds : lib.Finds)
include hmerges hnames hconverts hfinds

theorem load_of_document (hread : ReadsJson lib files content (chosenPath? environment path))
    (hcontent : Json.ofText? content = some (filterDocument v))
    (h : ∀ entry ∈ environment, lib.key? variableRule entry.1 = none ∨ entry.1 = pathVariable) :
    load lib files environment path none = .ok { default with logFilter := v } := by
  have hfile := hread.fileLayer hfinds hcontent
  have hunset : ∀ entry ∈ environment, Key.logFilter.isSetBy lib entry.1 = false := by
    intro entry hentry
    rcases h entry hentry with hnone | hpath
    · exact Key.isSetBy_eq_false hnone
    · rw [hpath]
      exact Key.isSetBy_pathVariable hnames _
  have hgiven : Key.logFilter.given? lib [("logging", .table [("filter", .text v)])] =
      some (.text v) := by
    have hpath : lib.path "logging" = [.name "logging"] := hnames.single (by decide)
    simp [Key.given?, hpath, Key.logFilter.saidAt?_section hnames v]
  refine load_of_filter hmerges hnames hconverts hfile (fun entry hentry => ?_)
    (ofFilter_assignments hnames fun entry hentry => (h entry hentry).imp_right .inl) ?_
  · obtain rfl := List.mem_singleton.1 hentry
    exact ofFilter_section hnames v
  · rw [layered_of_unset hunset]
    show lib.asText?
      ((Key.logFilter.given? lib [("logging", .table [("filter", .text v)])]).getD _) = _
    rw [hgiven]
    exact hconverts.text v

theorem load_of_override (hfile : NoFile lib files)
    (h : ∀ entry ∈ environment, lib.key? variableRule entry.1 = none) :
    load lib files environment none (some v) = .ok { default with logFilter := v } := by
  have hempty := fileLayer_none hnames hfinds hfile fun entry hentry => by
    rw [h entry hentry]
    simp
  have hlayered : Key.logFilter.layered lib [] environment = .text default.logFilter :=
    layered_of_unset fun entry hentry => Key.isSetBy_eq_false (h entry hentry)
  refine load_of_filter hmerges hnames hconverts hempty (List.forall_mem_nil _)
    (ofFilter_assignments hnames fun entry hentry => .inl (h entry hentry))
    (v := default.logFilter) ?_
  rw [hlayered]
  exact hconverts.text default.logFilter

theorem load_of_variable (hparses : lib.Parses) (hdisplays : lib.Displays)
    (hfile : NoFile lib files) (hset : (Key.logFilter.variableName, v) ∈ environment)
    (h : ∀ entry ∈ environment,
      lib.key? variableRule entry.1 = none ∨ entry = (Key.logFilter.variableName, v)) :
    load lib files environment none none = .ok { default with logFilter := shown v } := by
  have hempty := fileLayer_none hnames hfinds hfile fun entry hentry => by
    rcases h entry hentry with hnone | rfl
    · rw [hnone]
      simp
    · rw [key?_filter hnames]
      decide
  have hall : ∀ entry ∈ environment, Key.logFilter.isSetBy lib entry.1 = true → entry.2 = v := by
    intro entry hentry hkey
    rcases h entry hentry with hnone | rfl
    · rw [Key.isSetBy_eq_false hnone] at hkey
      cases hkey
    · rfl
  refine load_of_filter hmerges hnames hconverts hempty (List.forall_mem_nil _)
    (ofFilter_assignments hnames fun entry hentry => ?_) ?_
  · rcases h entry hentry with hnone | rfl
    · exact .inl hnone
    · exact .inr (.inr rfl)
  · rw [layered_of_variable hnames hset hall, hparses.value]
    exact hdisplays.asText?_eq (asText?_ofVariable v)

end

/-- **The log filter from each source.** Take any library that is as it is documented. A settings
file, however it is found and written, and an override give every text as it is, and the
environment the text of the value that it is read as; apart from the log filter the settings are
the defaults. What the environment gives is the text itself for the words `true` and `false` in
lower case, for integers without needless zeros and signs, for numbers in their shortest digits,
which have no exponent and no needless zeros and signs either, and for all texts that are read as
none of these. -/
theorem load_from_sources (hmerges : lib.Merges) (hnames : lib.Names) (hconverts : lib.Converts)
    (hfinds : lib.Finds) (hparses : lib.Parses) (hdisplays : lib.Displays) (v : String) :
    (∀ (files : Files) (environment : Environment) (path : Option String) (content : String),
      ReadsJson lib files content (chosenPath? environment path) →
      Json.ofText? content = some (filterDocument v) →
      (∀ entry ∈ environment, lib.key? variableRule entry.1 = none ∨ entry.1 = pathVariable) →
      load lib files environment path none = .ok { default with logFilter := v }) ∧
    Json.ofText? (filterDocument v).compact = some (filterDocument v) ∧
    (∀ (files : Files) (environment : Environment), NoFile lib files →
      (∀ entry ∈ environment, lib.key? variableRule entry.1 = none) →
      load lib files environment none (some v) = .ok { default with logFilter := v }) ∧
    (∀ (files : Files) (environment : Environment), NoFile lib files →
      (Key.logFilter.variableName, v) ∈ environment →
      (∀ entry ∈ environment,
        lib.key? variableRule entry.1 = none ∨ entry = (Key.logFilter.variableName, v)) →
      load lib files environment none none = .ok { default with logFilter := shown v }) ∧
    (shown v = v ↔
      v = "true" ∨ v = "false" ∨
      (∃ n, ofVariable v = .int n ∧ Decimal.IntegerText v.toList) ∨
      (∃ x, ofVariable v = .float x ∧ Setting.layout.render x = v) ∨
      ofVariable v = .text v) ∧
    (∀ x, ofVariable v = .float x → shown v = v → Decimal.NumberText v.toList) :=
  ⟨fun _ _ _ _ => load_of_document hmerges hnames hconverts hfinds,
    Json.ofText?_compact_text _ _ _,
    fun _ _ => load_of_override hmerges hnames hconverts hfinds,
    fun _ _ => load_of_variable hmerges hnames hconverts hfinds hparses hdisplays,
    shown_eq_iff v, fun _ => numberText_of_shown⟩

/-- A filter with quotes in it, from a file that a variable names, from an override and from the
environment. -/
theorem load_from_sources_quoted :
    let v := "app[\x7bkey=\"on\"\x7d]=debug"
    let files : Files := fun path =>
      if path = "c.json" then .text (filterDocument v).compact else .absent
    load .standard files [(pathVariable, "c.json")] none none =
        .ok { default with logFilter := v } ∧
      load .standard (fun _ => .absent) [] none (some v) = .ok { default with logFilter := v } ∧
      load .standard (fun _ => .absent) [(Key.logFilter.variableName, v)] none none =
        .ok { default with logFilter := v } := by
  intro v files
  obtain ⟨hdocument, hcontent, hoverride, hvariable, hshown, -⟩ :=
    load_from_sources Library.merges_standard Library.names_standard Library.converts_standard
      Library.finds_standard Library.parses_standard Library.displays_standard v
  have hfound : files "c.json" = .text (filterDocument v).compact := if_pos rfl
  have hread : ReadsJson .standard files (filterDocument v).compact (some "c.json") := by
    refine ⟨?_, "c.json", .inl rfl, by decide, hfound⟩
    rintro name hname
    cases hname
    rw [hfound]
    simp
  have htext : ofVariable v = .text v := by
    show ofVariable "app[\x7bkey=\"on\"\x7d]=debug" = .text "app[\x7bkey=\"on\"\x7d]=debug"
    cbv
  have hsame : shown v = v := hshown.2 (.inr (.inr (.inr (.inr htext))))
  have hnone : NoFile .standard fun _ => .absent := fun _ _ => rfl
  refine ⟨hdocument files _ none _ hread hcontent ?_,
    hoverride _ _ hnone (List.forall_mem_nil _), ?_⟩
  · exact List.forall_mem_singleton.2 (.inr rfl)
  · rw [hvariable (fun _ => .absent) [(Key.logFilter.variableName, v)] hnone List.mem_cons_self
      (List.forall_mem_singleton.2 (.inr rfl)), hsame]

/-- **Not every text comes out of the environment as it is**: `TRUE` is read as a truth value,
which is written `true`. -/
theorem not_load_from_sources : ¬ ∀ v : String,
    load .standard (fun _ => .absent) [(Key.logFilter.variableName, v)] none none =
      load .standard (fun _ => .absent) [] none (some v) := by
  intro h
  have hvalue : ofVariable "TRUE" = .bool true := if_pos (by cbv)
  have hshown : shown "TRUE" = "true" := by
    rw [shown, hvalue]
    rfl
  have hnone : NoFile .standard fun _ => .absent := fun _ _ => rfl
  have hvariable :
      load .standard (fun _ => .absent) [(Key.logFilter.variableName, "TRUE")] none none =
        .ok { default with logFilter := shown "TRUE" } :=
    load_of_variable Library.merges_standard Library.names_standard Library.converts_standard
      Library.finds_standard Library.parses_standard Library.displays_standard hnone
      List.mem_cons_self (List.forall_mem_singleton.2 (.inr rfl))
  have hoverride : load .standard (fun _ => .absent) [] none (some "TRUE") =
      .ok { default with logFilter := "TRUE" } :=
    load_of_override Library.merges_standard Library.names_standard Library.converts_standard
      Library.finds_standard hnone (List.forall_mem_nil _)
  have hsame := h "TRUE"
  rw [hvariable, hshown, hoverride] at hsame
  revert hsame
  decide

end Settings
end ActionTree
