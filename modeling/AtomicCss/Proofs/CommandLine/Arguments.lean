import AtomicCss.Proofs.CommandLine.Output
import AtomicCss.Proofs.Ordered.Extension
import AtomicCss.Proofs.Text.Words

/-!
# What arguments stand for

Arguments fall into groups from the left: an option with its value, the request for the base layer, or a file. An
option that takes a value takes whatever comes next, so that the groups are known only once everything in front of
them is. Arguments are rejected where no group can be read, or if the groups name nothing to compile.

## The architecture

* **`Group`** — the groups and their arguments. `read_group` is the step lemma of reading, `read_groups` the run lemma,
  and `fallApart` says that all arguments fall into groups, up to where no group can be read.
* **`IsToken`**, **`Lists`** — what a class token is, and a class list: tokens between separators. `Lists.fields_eq`
  says that a list is cut into its tokens.
* **`Spells`**, **`Rejected`** — what groups say about options, and the three reasons to reject arguments.
  `spells_printed` says that options can be spelled.
* **`parse_inverts_spelling`** — arguments that spell options are read as these options, and arguments are rejected
  for these reasons only.
-/

namespace AtomicCss.CommandLine

/-! ## Groups -/

inductive Group where
  | theme (path : String)
  | components (directory : String)
  | base
  | classes (list : String)
  | file (path : String)
  deriving DecidableEq

namespace Group

def arguments : Group → List String
  | theme path => ["--theme", path]
  | components directory => ["--components", directory]
  | base => ["--base"]
  | classes list => ["--classes", list]
  | file path => [path]

/-- A file does not look like an option; a value may look like anything. -/
def IsProper : Group → Prop
  | file path => Text.startsWith "--" path = false
  | _ => True

instance : DecidablePred IsProper
  | file path => inferInstanceAs (Decidable (Text.startsWith "--" path = false))
  | theme _ | components _ | base | classes _ => inferInstanceAs (Decidable True)

def theme? : Group → Option String
  | theme path => some path
  | _ => none

def components? : Group → Option String
  | components directory => some directory
  | _ => none

def list? : Group → Option String
  | classes list => some list
  | _ => none

def file? : Group → Option String
  | file path => some path
  | _ => none

def apply (options : Options) : Group → Options
  | theme path => { options with theme := some path }
  | components directory => { options with components := some directory }
  | base => { options with base := true }
  | classes list => options.addClasses list
  | file path => options.addFile path

end Group

def spelling (groups : List Group) : List String :=
  groups.flatMap Group.arguments

def applied (options : Options) (groups : List Group) : Options :=
  groups.foldl Group.apply options

variable {groups : List Group} {group : Group} {options : Options} {arguments rest : List String}

theorem read_group (h : group.IsProper) :
    Options.read options (group.arguments ++ rest) = Options.read (group.apply options) rest := by
  cases group with
  | file path =>
    have hdashes : Text.startsWith "--" path = false := h
    have hne (name : String) (hname : Text.startsWith "--" name = true) : path ≠ name := by
      rintro rfl
      exact Bool.false_ne_true (hdashes.symm.trans hname)
    -- what does not begin with dashes is none of the options
    rw [Group.arguments, List.singleton_append, Options.read.eq_def]
    simp only [hne "--theme" (by decide), hne "--components" (by decide), hne "--classes" (by decide),
      hne "--base" (by decide), hdashes, if_false, Bool.false_eq_true]
    rfl
  | theme path => rfl
  | components directory => rfl
  | base =>
    rw [Group.arguments, List.singleton_append, Options.read.eq_def]
    rfl
  | classes list => rfl

/-- **Reading goes on group by group.** Induction on the groups. -/
theorem read_groups (h : ∀ group ∈ groups, group.IsProper) :
    Options.read options (spelling groups ++ rest) = Options.read (applied options groups) rest := by
  induction groups generalizing options with
  | nil => rfl
  | cons group groups ih =>
    obtain ⟨hgroup, hgroups⟩ := List.forall_mem_cons.1 h
    rw [spelling, List.flatMap_cons, List.append_assoc, read_group hgroup]
    exact ih hgroups

/-! ## Where reading ends -/

/-- An argument looks like an option and is none. -/
def IsUnknown (argument : String) : Prop :=
  Text.startsWith "--" argument = true ∧ argument ∉ ["--theme", "--components", "--base", "--classes"]

/-- No group can be read: an option misses its value, or there is no such option. -/
inductive Stuck : List String → UsageFault → Prop where
  | missingValue {option : String} (h : Options.takesValue option = true) : Stuck [option] (.missingValue option)
  | unknownOption {option : String} {rest : List String} (h : IsUnknown option) :
      Stuck (option :: rest) (.unknownOption option)

theorem read_of_stuck {fault : UsageFault} (h : Stuck rest fault) : Options.read options rest = .error fault := by
  cases h with
  | @missingValue option h =>
    simp only [Options.takesValue, List.contains_eq_mem, decide_eq_true_eq, List.mem_cons, List.not_mem_nil,
      or_false] at h
    rcases h with rfl | rfl | rfl <;> rfl
  | @unknownOption option rest h =>
    obtain ⟨hdashes, hknown⟩ := h
    simp only [List.mem_cons, List.not_mem_nil, or_false, not_or] at hknown
    rw [Options.read.eq_def]
    simp only [hknown, hdashes, if_false, if_true]

/-- Arguments fall into groups, up to their end or up to where no group can be read. -/
def FallApart (arguments : List String) : Prop :=
  ∃ groups rest, (∀ group ∈ groups, group.IsProper) ∧ arguments = spelling groups ++ rest ∧
    (rest = [] ∨ ∃ fault, Stuck rest fault)

theorem FallApart.of_stuck {fault : UsageFault} (h : Stuck rest fault) : FallApart rest :=
  ⟨[], rest, List.forall_mem_nil _, rfl, .inr ⟨fault, h⟩⟩

theorem FallApart.cons (group : Group) (hgroup : group.IsProper) (h : FallApart arguments) :
    FallApart (group.arguments ++ arguments) := by
  obtain ⟨groups, rest, hgroups, rfl, hend⟩ := h
  exact ⟨group :: groups, rest, List.forall_mem_cons.2 ⟨hgroup, hgroups⟩, (List.append_assoc _ _ _).symm, hend⟩

/-- **All arguments fall into groups, up to one that is rejected.** Induction as the arguments are read. -/
theorem fallApart (arguments : List String) : FallApart arguments := by
  fun_induction Options.read {} arguments with
  | case1 => exact ⟨[], [], List.forall_mem_nil _, rfl, .inl rfl⟩
  | case2 => exact .of_stuck (.missingValue (by decide))
  | case4 => exact .of_stuck (.missingValue (by decide))
  | case6 => exact .of_stuck (.missingValue (by decide))
  | case3 options value rest ih => exact .cons (.theme value) trivial ih
  | case5 options value rest hne ih => exact .cons (.components value) trivial ih
  | case7 options value rest hne hne' ih => exact .cons (.classes value) trivial ih
  | case8 options rest hne hne' hne'' ih => exact .cons .base trivial ih
  | case9 options argument rest htheme hcomponents hclasses hbase hdashes =>
    exact .of_stuck (.unknownOption ⟨hdashes, by simp [htheme, hcomponents, hclasses, hbase]⟩)
  | case10 options argument rest htheme hcomponents hclasses hbase hdashes ih =>
    exact .cons (.file argument) (Bool.eq_false_iff.2 hdashes) ih

/-! ## What groups come to -/

theorem theme_applied (groups : List Group) : (applied {} groups).theme = (groups.filterMap Group.theme?).getLast? :=
  (foldl_slot _ (fun _ group => by cases group <;> rfl) groups _).trans (Option.or_none ..)

theorem components_applied (groups : List Group) :
    (applied {} groups).components = (groups.filterMap Group.components?).getLast? :=
  (foldl_slot _ (fun _ group => by cases group <;> rfl) groups _).trans (Option.or_none ..)

theorem base_applied : (applied options groups).base = true ↔ options.base = true ∨ Group.base ∈ groups := by
  induction groups generalizing options with
  | nil => simp [applied]
  | cons group groups ih =>
    rw [applied, List.foldl_cons, ← applied, ih, List.mem_cons]
    cases group <;> simp [Group.apply, Options.addClasses, Options.addFile]

theorem classes_applied :
    (applied options groups).classes =
      options.classes ++ (groups.filterMap Group.list?).flatMap (Text.fields isSeparator) := by
  induction groups generalizing options with
  | nil => exact (List.append_nil _).symm
  | cons group groups ih =>
    rw [applied, List.foldl_cons, ← applied, ih]
    cases group <;> simp [Group.apply, Group.list?, Options.addClasses, Options.addFile, List.filterMap_cons]

theorem files_applied : (applied options groups).files = options.files ++ groups.filterMap Group.file? := by
  induction groups generalizing options with
  | nil => exact (List.append_nil _).symm
  | cons group groups ih =>
    rw [applied, List.foldl_cons, ← applied, ih]
    cases group <;> simp [Group.apply, Group.file?, Options.addClasses, Options.addFile, List.filterMap_cons]

/-! ## Class lists -/

/-- A class token: there is something of it, and no separator in it. -/
def IsToken (token : String) : Prop :=
  token ≠ "" ∧ ∀ c ∈ token.toList, isSeparator c = false

instance : DecidablePred IsToken := fun token =>
  decidable_of_iff (token ≠ "" ∧ token.toList.all (!isSeparator ·) = true) (by simp [IsToken])

/-- A class list holds tokens: separators may stand anywhere, and a token ends in front of one or at the end. -/
inductive Lists : List Char → List String → Prop where
  | nil : Lists [] []
  | separator {c : Char} {cs : List Char} {tokens : List String} (hc : isSeparator c = true) (h : Lists cs tokens) :
      Lists (c :: cs) tokens
  | token (token : String) {cs : List Char} {tokens : List String} (htoken : IsToken token)
      (hend : ∀ c ∈ cs.head?, isSeparator c = true) (h : Lists cs tokens) : Lists (token.toList ++ cs) (token :: tokens)

/-- **A class list is cut into its tokens.** Induction on what the list holds. -/
theorem Lists.fields_eq {cs : List Char} {tokens : List String} (h : Lists cs tokens) :
    Text.fields isSeparator (String.ofList cs) = tokens := by
  induction h with
  | nil => exact Text.fields_nil
  | separator hc _ ih => rw [Text.fields_cons hc, ih]
  | token token htoken hend _ ih =>
    rw [Text.fields_word_append (mt String.toList_eq_nil_iff.1 htoken.1) htoken.2 hend, ih, String.ofList_toList]

/-- Tokens joined by a separator are the tokens of the joined list. -/
theorem lists_intercalate {c : Char} (hc : isSeparator c = true) {tokens : List String}
    (h : ∀ token ∈ tokens, IsToken token) : Lists ([c].intercalate (tokens.map String.toList)) tokens := by
  induction tokens with
  | nil => exact .nil
  | cons token tokens ih =>
    obtain ⟨htoken, htokens⟩ := List.forall_mem_cons.1 h
    cases tokens with
    | nil =>
      rw [List.map_singleton, List.intercalate_singleton, ← List.append_nil token.toList]
      exact .token token htoken (by simp) .nil
    | cons token' tokens =>
      rw [List.map_cons, List.map_cons, List.intercalate_cons_cons, List.append_assoc]
      refine .token token htoken (fun c' hc' => ?_) (.separator hc (ih htokens))
      obtain rfl : c = c' := Option.some.inj hc'
      exact hc

/-- A list without a token consists of separators. -/
theorem fields_eq_nil_iff {text : String} :
    Text.fields isSeparator text = [] ↔ ∀ c ∈ text.toList, isSeparator c = true := by
  obtain ⟨cs, rfl⟩ : ∃ cs, text = String.ofList cs := ⟨text.toList, String.ofList_toList.symm⟩
  rw [String.toList_ofList]
  induction cs with
  | nil => exact ⟨fun _ => List.forall_mem_nil _, fun _ => Text.fields_nil⟩
  | cons c cs ih =>
    cases hc : isSeparator c with
    | true => rw [Text.fields_cons hc, ih, List.forall_mem_cons, and_iff_right hc]
    | false =>
      -- a token begins with the character, and reaches up to the next separator
      have hsplit : c :: cs = (c :: cs.takeWhile (!isSeparator ·)) ++ cs.dropWhile (!isSeparator ·) := by
        rw [List.cons_append, List.takeWhile_append_dropWhile]
      have hword : ∀ d ∈ c :: cs.takeWhile (!isSeparator ·), isSeparator d = false :=
        List.forall_mem_cons.2 ⟨hc, fun d hd => by simpa using List.all_eq_true.1 List.all_takeWhile d hd⟩
      have hend : ∀ d ∈ (cs.dropWhile (!isSeparator ·)).head?, isSeparator d = true := by
        intro d hd
        have hnot := List.head?_dropWhile_not (!isSeparator ·) cs
        rw [Option.mem_def.1 hd] at hnot
        simpa using hnot
      rw [List.forall_mem_cons, hsplit, Text.fields_word_append (List.cons_ne_nil _ _) hword hend]
      simp [hc]

/-! ## Spelling options -/

/-- Groups say what options are. They may stand in any order, as long as class lists and files keep theirs; of several
values for one option the last one counts. -/
structure Spells (groups : List Group) (options : Options) : Prop where
  theme : options.theme = (groups.filterMap Group.theme?).getLast?
  components : options.components = (groups.filterMap Group.components?).getLast?
  base : options.base = true ↔ Group.base ∈ groups
  /-- The class tokens are spread over the lists, and each list holds its part. -/
  classes : ∃ parts : List (List String), options.classes = parts.flatten ∧
    List.Forall₂ (fun tokens list => Lists list.toList tokens) parts (groups.filterMap Group.list?)
  files : options.files = groups.filterMap Group.file?

theorem flatMap_fields_eq_flatten {parts : List (List String)} {lists : List String}
    (h : List.Forall₂ (fun tokens list => Lists list.toList tokens) parts lists) :
    lists.flatMap (Text.fields isSeparator) = parts.flatten := by
  induction h with
  | nil => rfl
  | cons hlist _ ih =>
    have hfields := hlist.fields_eq
    rw [String.ofList_toList] at hfields
    rw [List.flatMap_cons, List.flatten_cons, hfields, ih]

theorem Spells.applied_eq (h : Spells groups options) : applied {} groups = options := by
  obtain ⟨parts, hclasses, hlists⟩ := h.classes
  have hbase : (applied {} groups).base = options.base := by
    rw [Bool.eq_iff_iff, base_applied, h.base]
    simp
  -- an `Options` is its fields, and each of them has its lemma
  have hwhole : applied {} groups =
      ⟨(applied {} groups).theme, (applied {} groups).components, (applied {} groups).base,
        (applied {} groups).classes, (applied {} groups).files⟩ := rfl
  rw [hwhole, theme_applied, components_applied, hbase, classes_applied, files_applied,
    flatMap_fields_eq_flatten hlists, ← hclasses, ← h.theme, ← h.components, ← h.files]
  rfl

/-- The groups of options in a fixed order, with all class tokens in one list. -/
def printed (options : Options) : List Group :=
  options.theme.toList.map .theme ++ options.components.toList.map .components ++
    (if options.base then [.base] else []) ++
    [.classes (String.ofList ([','].intercalate (options.classes.map String.toList)))] ++ options.files.map .file

theorem filterMap_printed {α : Type} (f : Group → Option α) (options : Options) :
    (printed options).filterMap f =
      (options.theme.bind fun path => f (.theme path)).toList ++
        (options.components.bind fun directory => f (.components directory)).toList ++
        (if options.base then (f .base).toList else []) ++
        (f (.classes (String.ofList ([','].intercalate (options.classes.map String.toList))))).toList ++
        options.files.filterMap fun path => f (.file path) := by
  have hone (group : Group) : [group].filterMap f = (f group).toList := by
    cases h : f group <;> simp [h]
  have hoption (group : String → Group) (value : Option String) :
      (value.toList.map group).filterMap f = (value.bind fun text => f (group text)).toList := by
    cases value with
    | none => rfl
    | some text => exact hone (group text)
  have hbase (base : Bool) :
      (if base then [Group.base] else []).filterMap f = if base then (f .base).toList else [] := by
    rw [apply_ite (List.filterMap f), hone, List.filterMap_nil]
  rw [printed, List.filterMap_append, List.filterMap_append, List.filterMap_append, List.filterMap_append,
    hoption, hoption, hbase, hone, List.filterMap_map]
  rfl

theorem getLast?_toList {α : Type} (value : Option α) : value.toList.getLast? = value := by
  cases value <;> rfl

/-- **All options can be spelled**, if their class tokens are tokens and their files do not look like options. -/
theorem spells_printed (hclasses : ∀ token ∈ options.classes, IsToken token)
    (hfiles : ∀ file ∈ options.files, Text.startsWith "--" file = false) :
    (∀ group ∈ printed options, group.IsProper) ∧ Spells (printed options) options := by
  have hlists : (printed options).filterMap Group.list? =
      [String.ofList ([','].intercalate (options.classes.map String.toList))] := by
    simp [filterMap_printed, Group.list?]
  have hproper (group : Group) (hgroup : group ∈ printed options) : group.IsProper := by
    cases group with
    | file path => exact hfiles path (by simpa [printed] using hgroup)
    | _ => trivial
  have hjoined : Lists (String.ofList ([','].intercalate (options.classes.map String.toList))).toList
      options.classes := by
    rw [String.toList_ofList]
    exact lists_intercalate (by decide) hclasses
  exact ⟨hproper,
    { theme := by simp [filterMap_printed, Group.theme?, getLast?_toList]
      components := by simp [filterMap_printed, Group.components?, getLast?_toList]
      base := by simp [printed]
      classes := ⟨[options.classes], by simp, hlists ▸ .cons hjoined .nil⟩
      files := by simp [filterMap_printed, Group.file?] }⟩

/-- **Reasons to reject arguments.** The groups in front can all be read. -/
inductive Rejected : List String → UsageFault → Prop where
  /-- An option that takes a value is the last argument. -/
  | missingValue (groups : List Group) {option : String} (hgroups : ∀ group ∈ groups, group.IsProper)
      (h : Options.takesValue option = true) : Rejected (spelling groups ++ [option]) (.missingValue option)
  /-- An argument that looks like an option and is none stands where an option may stand. -/
  | unknownOption (groups : List Group) {option : String} {rest : List String}
      (hgroups : ∀ group ∈ groups, group.IsProper) (h : IsUnknown option) :
      Rejected (spelling groups ++ option :: rest) (.unknownOption option)
  /-- There is no file, and no class list holds a token. -/
  | nothingToCompile (groups : List Group) (hgroups : ∀ group ∈ groups, group.IsProper)
      (hfiles : groups.filterMap Group.file? = [])
      (hclasses : ∀ list ∈ groups.filterMap Group.list?, ∀ c ∈ list.toList, isSeparator c = true) :
      Rejected (spelling groups) .nothingToCompile

theorem parse_spelling (h : ∀ group ∈ groups, group.IsProper) :
    Options.parse (spelling groups) =
      if (applied {} groups).files = [] ∧ (applied {} groups).classes = [] then .error .nothingToCompile
      else .ok (applied {} groups) := by
  have hread : Options.read {} (spelling groups) = .ok (applied {} groups) := by
    rw [← List.append_nil (spelling groups), read_groups h]
    rfl
  rw [Options.parse, hread]
  simp [bind, Except.bind]

theorem parse_of_stuck {fault : UsageFault} (h : ∀ group ∈ groups, group.IsProper) (hstuck : Stuck rest fault) :
    Options.parse (spelling groups ++ rest) = .error fault := by
  rw [Options.parse, read_groups h, read_of_stuck hstuck]
  rfl

theorem names_nothing_iff :
    (applied {} groups).files = [] ∧ (applied {} groups).classes = [] ↔
      groups.filterMap Group.file? = [] ∧
        ∀ list ∈ groups.filterMap Group.list?, ∀ c ∈ list.toList, isSeparator c = true := by
  rw [files_applied, classes_applied, List.nil_append, List.nil_append, List.flatMap_eq_nil_iff]
  simp only [fields_eq_nil_iff]

/-- **Arguments are rejected for three reasons only.** -/
theorem parse_eq_error_iff {fault : UsageFault} :
    Options.parse arguments = .error fault ↔ Rejected arguments fault := by
  constructor
  · intro h
    -- either all arguments were read, so that only nothing to compile is left, or the rest says what is wrong
    obtain ⟨groups, rest, hgroups, rfl, rfl | ⟨fault', hstuck⟩⟩ := fallApart arguments
    · rw [List.append_nil] at h ⊢
      rw [parse_spelling hgroups] at h
      split at h
      · rename_i hnothing
        cases h
        obtain ⟨hfiles, hclasses⟩ := names_nothing_iff.1 hnothing
        exact .nothingToCompile groups hgroups hfiles hclasses
      · cases h
    · rw [parse_of_stuck hgroups hstuck] at h
      cases h
      cases hstuck with
      | missingValue h => exact .missingValue groups hgroups h
      | unknownOption h => exact .unknownOption groups hgroups h
  · intro h
    cases h with
    | missingValue groups hgroups h => exact parse_of_stuck hgroups (.missingValue h)
    | unknownOption groups hgroups h => exact parse_of_stuck hgroups (.unknownOption h)
    | nothingToCompile groups hgroups hfiles hclasses =>
      rw [parse_spelling hgroups, if_pos (names_nothing_iff.2 ⟨hfiles, hclasses⟩)]

/-- **Reading arguments inverts spelling options.** Groups that spell options with a class or a file are read as
exactly these options, in whatever order they stand; and options whose class tokens are tokens and whose files do not
look like options can be spelled. Arguments are rejected if and only if, reading from the left, an option that takes a
value is the last argument, there is an unknown option where an option may stand, or there is neither a class nor a
file; and the fault says which. -/
theorem parse_inverts_spelling :
    (∀ groups options, (∀ group ∈ groups, group.IsProper) → Spells groups options →
      options.classes ≠ [] ∨ options.files ≠ [] → Options.parse (spelling groups) = .ok options) ∧
    (∀ options : Options,
      (∀ token ∈ options.classes, IsToken token) → (∀ file ∈ options.files, Text.startsWith "--" file = false) →
      ∃ groups, (∀ group ∈ groups, group.IsProper) ∧ Spells groups options) ∧
    (∀ arguments fault, Options.parse arguments = .error fault ↔ Rejected arguments fault) := by
  refine ⟨fun groups options hgroups hspells hsome => ?_, fun options hclasses hfiles => ?_,
    fun arguments fault => parse_eq_error_iff⟩
  · rw [parse_spelling hgroups, hspells.applied_eq, if_neg]
    rintro ⟨hfiles, hclasses⟩
    exact hsome.elim (· hclasses) (· hfiles)
  · exact ⟨printed options, spells_printed hclasses hfiles⟩

/-- A theme may be called like an option, and class lists may stand around it. -/
theorem theme_called_like_an_option_is_read :
    Options.parse ["page.html", "--classes", "flex, p-4", "--theme", "--base", "--classes", "m-2"] =
        .ok { theme := some "--base", classes := ["flex", "p-4", "m-2"], files := ["page.html"] } ∧
      (∃ groups, (∀ group ∈ groups, group.IsProper) ∧ Spells groups { base := true, classes := ["flex", "p-4"] }) ∧
      Options.parse ["--theme", "--base", "--classes"] = .error (.missingValue "--classes") := by
  have hpadding : Lists [',', ' ', 'p', '-', '4'] ["p-4"] :=
    .separator (by decide) (.separator (by decide) (.token "p-4" (by decide) (by simp) .nil))
  have hflex : Lists ("flex".toList ++ [',', ' ', 'p', '-', '4']) ["flex", "p-4"] :=
    .token "flex" (by decide) (by simp [isSeparator]) hpadding
  have hmargin : Lists "m-2".toList ["m-2"] := .token "m-2" (by decide) (by simp) .nil
  refine ⟨?_, parse_inverts_spelling.2.1 _ (by decide) (by decide), ?_⟩
  · exact parse_inverts_spelling.1
      [.file "page.html", .classes "flex, p-4", .theme "--base", .classes "m-2"] _ (by decide)
      { theme := rfl
        components := rfl
        base := by decide
        classes := ⟨[["flex", "p-4"], ["m-2"]], rfl, .cons hflex (.cons hmargin .nil)⟩
        files := rfl }
      (.inr (List.cons_ne_nil _ _))
  · exact (parse_inverts_spelling.2.2 _ _).2 (.missingValue [.theme "--base"] (by decide) (by decide))

end AtomicCss.CommandLine
