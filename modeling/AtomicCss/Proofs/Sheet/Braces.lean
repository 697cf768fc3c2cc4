import AtomicCss.Proofs.Css.Containment
import AtomicCss.Proofs.Text.Exposed
import AtomicCss.Sheet
import Mathlib.Data.List.Induction

/-!
# The braces of a rendered sheet

The text of a sheet is blocks in blocks. As long as no text that is put into it has an exposed brace of its
own, all its braces are those of its blocks, and they are balanced.

## The architecture

* **`settled_renderBody`**, **`settled_ruleText`**, **`settled_block`** — what bodies, rules and blocks are
  put together with closes every backslash that a text may leave open.
* **`Keyframes.settled_text?`** — the built-in animations.
* **`Sheet.IsContained`** — the selectors, bodies and queries of a sheet let nothing out.
  `IsContained.add` keeps it for one rule, in a bucket, in the block of a container query and in the sheet;
  `isContained_ofRules` for all.
* **`settled_renderUtilities`** — the text of such a sheet, its components apart, is settled.
-/

namespace AtomicCss

open Text (isIdentifier breaksOut isAsciiName isAsciiClean leaks Settled Opens Closes Closing)

/-! ## Fixed texts -/

theorem closing_space : Closing " " := .of_all (by decide) (by decide)

theorem closing_semicolon : Closing ";" := .of_all (by decide) (by decide)

theorem closing_comma : Closing ", " := .of_all (by decide) (by decide)

theorem closing_newline : Closing "\n" := .of_all (by decide) (by decide)

theorem opens_brace : Opens "\x7b " := fun _ _ => rfl

theorem closes_brace : Closes " \x7d" := fun _ _ => rfl

theorem closes_brace_newline : Closes "\x7d\n" := fun _ _ => rfl

/-! ## Bodies -/

/-- One property is settled: its semicolon closes what the value leaves open. -/
theorem settled_propertyText {name value : String} (hname : isIdentifier name = true)
    (hvalue : breaksOut value = false) : Settled (propertyText name value) := by
  have hcolon : breaksOut ": " = false := by decide
  have hclean : breaksOut (name ++ ": " ++ value) = false := by
    rw [Text.breaksOut_append, Text.breaksOut_append, Text.not_breaksOut_of_isIdentifier hname, hcolon,
      hvalue]
    rfl
  exact Text.settled_of_leaks (Text.leaks_eq_nil hclean false) closing_semicolon

theorem Declaration.settled_text {declaration : Declaration} (h : declaration.IsContained) :
    Settled declaration.text := by
  cases declaration with
  | property name value => exact settled_propertyText h.1 h.2
  | supports condition properties =>
    have hsupports : breaksOut "@supports " = false := by decide
    have hhead : leaks false ("@supports " ++ condition).toList = [] := by
      refine Text.leaks_eq_nil ?_ false
      show breaksOut ("@supports " ++ condition) = false
      rw [Text.breaksOut_append, hsupports, h.1]
      rfl
    -- the condition stands in front of the brace, which closes what it leaves open
    refine Settled.nest ?_ (Text.settled_join fun s hs => ?_) closes_brace
    · exact Text.opens_of_leaks hhead fun e _ _ => by cases e <;> rfl
    · obtain ⟨⟨name, value⟩, hp, rfl⟩ := List.mem_map.1 hs
      exact closing_space.settled.append (settled_propertyText (h.2 _ hp).1 (h.2 _ hp).2)

theorem settled_renderBody {declarations : List Declaration} (h : ∀ d ∈ declarations, d.IsContained) :
    Settled (renderBody declarations) := by
  refine Text.settled_intercalate closing_space.settled fun s hs => ?_
  obtain ⟨d, hd, rfl⟩ := List.mem_map.1 hs
  exact d.settled_text (h d hd)

/-! ## Rules and blocks -/

theorem settled_braced {inner : String} (h : Settled inner) : Settled (braced inner) :=
  Settled.nest opens_brace h closes_brace

/-- A list of selectors is settled once it is closed: a comma or the closing text stands behind each of them. -/
theorem settled_selectors {selectors : List String} (h : ∀ s ∈ selectors, leaks false s.toList = []) :
    Settled (", ".intercalate selectors ++ " ") := by
  induction selectors with
  | nil =>
    rw [String.intercalate_nil, String.empty_append]
    exact closing_space.settled
  | cons s selectors ih =>
    have hs := h s (List.mem_cons_self ..)
    cases selectors with
    | nil =>
      rw [String.intercalate_singleton]
      exact Text.settled_of_leaks hs closing_space
    | cons t selectors =>
      rw [String.intercalate_cons_cons, String.append_assoc]
      exact (Text.settled_of_leaks hs closing_comma).append
        (ih fun u hu => h u (List.mem_cons_of_mem _ hu))

theorem settled_ruleText {selectors : List String} {body : String}
    (hselectors : ∀ s ∈ selectors, leaks false s.toList = []) (hbody : Settled body) :
    Settled (ruleText (", ".intercalate selectors) body) :=
  (settled_selectors hselectors).append (settled_braced hbody)

theorem settled_block {indent heading content : String} (hindent : Settled indent)
    (hhead : breaksOut (indent ++ heading) = false) (hcontent : Settled content) :
    Settled (Sheet.block indent heading content) := by
  -- the space in front of the brace closes what the heading leaves open
  have hopens : Opens (indent ++ heading ++ " \x7b\n") :=
    Text.opens_of_leaks (Text.leaks_eq_nil hhead false) fun e _ _ => by cases e <;> rfl
  have hblock := Settled.nest hopens (hcontent.append hindent) closes_brace_newline
  rwa [← String.append_assoc] at hblock

/-! ## Animations -/

/-- Whether the texts of an animation are clean, told from the bytes. -/
def Keyframes.passes (animation : String × List (String × List (String × String))) : Bool :=
  isAsciiClean animation.1 && animation.2.all fun frame =>
    isAsciiClean frame.1 && frame.2.all fun p => isAsciiName p.1 && isAsciiClean p.2

theorem Keyframes.table_pass : Keyframes.table.all Keyframes.passes := by decide +kernel

/-- **A built-in animation is settled.** -/
theorem Keyframes.settled_text? {name text : String} (h : Keyframes.text? name = some text) :
    Settled text := by
  obtain ⟨⟨known, frames⟩, hfound, rfl⟩ := Option.map_eq_some_iff.1 h
  have hpasses := List.all_eq_true.1 Keyframes.table_pass _ (List.mem_of_find?_eq_some hfound)
  rw [Keyframes.passes, Bool.and_eq_true] at hpasses
  have hat : breaksOut "@keyframes " = false := by decide
  have hhead : breaksOut ("@keyframes " ++ known) = false := by
    rw [Text.breaksOut_append, hat, Text.breaksOut_of_isAsciiClean hpasses.1]
    rfl
  have hframes : ∀ s ∈ frames.map Keyframes.frameText, Settled s := by
    intro s hs
    obtain ⟨frame, hframe, rfl⟩ := List.mem_map.1 hs
    have hclean := List.all_eq_true.1 hpasses.2 frame hframe
    rw [Bool.and_eq_true] at hclean
    have hselector := Text.leaks_eq_nil (Text.breaksOut_of_isAsciiClean hclean.1) false
    refine (Text.settled_of_leaks hselector closing_space).append (settled_braced (settled_renderBody ?_))
    refine Declaration.isContained_ofPairs fun p hp => ?_
    have hpair := List.all_eq_true.1 hclean.2 p hp
    rw [Bool.and_eq_true] at hpair
    exact ⟨Text.isIdentifier_of_isAsciiName hpair.1, Text.breaksOut_of_isAsciiClean hpair.2⟩
  exact (Text.settled_of_leaks (Text.leaks_eq_nil hhead false) closing_space).append
    (settled_braced (Text.settled_intercalate closing_space.settled hframes))

/-! ## Sheets that let nothing out -/

/-- The bodies of a bucket are settled and its selectors leak nothing. -/
def Bucket.IsContained (bucket : Bucket) : Prop :=
  ∀ entry ∈ bucket.entries, Settled entry.1 ∧ ∀ s ∈ entry.2.toList, leaks false s.toList = []

/-- The buckets of the block of a container query let nothing out, and its media queries hold no delimiter. -/
structure ContainerBlock.IsContained (block : ContainerBlock) : Prop where
  rules : block.rules.IsContained
  media : ∀ inner ∈ block.media.entries, breaksOut inner.1 = false ∧ inner.2.IsContained

/-- The rules of a sheet let nothing out, and its queries hold no delimiter. -/
structure Sheet.IsContained (sheet : Sheet) : Prop where
  utilities : sheet.utilities.IsContained
  media : ∀ entry ∈ sheet.media.entries, breaksOut entry.1 = false ∧ entry.2.rules.IsContained
  containers : ∀ entry ∈ sheet.containers.entries, breaksOut entry.1 = false ∧ entry.2.IsContained

/-- A rule lets nothing out: not its selector, not its queries, not its body. -/
structure Rule.IsSettled (rule : Rule) : Prop where
  selector : leaks false rule.selector.toList = []
  media : ∀ query ∈ rule.media, breaksOut query.query = false
  container : ∀ query ∈ rule.container, breaksOut query = false
  body : Settled rule.body

theorem Bucket.isContained_empty : Bucket.IsContained ∅ := fun _ h => absurd h List.not_mem_nil

/-- A bucket with one more such rule. -/
theorem Bucket.IsContained.add {bucket : Bucket} (h : bucket.IsContained) {rule : Rule}
    (hr : rule.IsSettled) : (bucket.add rule).IsContained := by
  intro entry hentry
  rcases OrderedMap.mem_entries_alter hentry with rfl | hold
  · refine ⟨hr.body, fun s hs => ?_⟩
    rcases OrderedSet.mem_insert.1 hs with rfl | hs
    · exact hr.selector
    -- the selectors of this body were there before
    · cases hb : bucket.get? rule.body with
      | none =>
        rw [hb] at hs
        cases hs
      | some selectors =>
        rw [hb] at hs
        exact (h _ (OrderedMap.get?_eq_some_iff.1 hb)).2 s hs
  · exact h entry hold

/-- The block of a container query with one more such rule, which goes into the bucket of its media query. -/
theorem ContainerBlock.IsContained.add {block : ContainerBlock} (h : block.IsContained) {rule : Rule}
    (hr : rule.IsSettled) : (block.add rule).IsContained := by
  unfold ContainerBlock.add
  split
  · rename_i media hmedia
    refine ⟨h.rules, fun inner hinner => ?_⟩
    rcases OrderedMap.mem_entries_alter hinner with rfl | hold
    · refine ⟨hr.media media hmedia, ?_⟩
      cases hb : block.media.get? media.query with
      | none => exact Bucket.isContained_empty.add hr
      | some bucket => exact (h.media _ (OrderedMap.get?_eq_some_iff.1 hb)).2.add hr
    · exact h.media inner hold
  · exact ⟨h.rules.add hr, h.media⟩

namespace Sheet

theorem isContained_empty : IsContained ∅ where
  utilities := Bucket.isContained_empty
  media _ h := absurd h List.not_mem_nil
  containers _ h := absurd h List.not_mem_nil

/-- **One more rule that lets nothing out.** It goes into one bucket, by its queries. -/
theorem IsContained.add {sheet : Sheet} (h : sheet.IsContained) {rule : Rule} (hr : rule.IsSettled) :
    (sheet.add rule).IsContained := by
  -- the animation shows in no bucket
  have hk : (sheet.addKeyframes rule.keyframes).IsContained := by
    cases rule.keyframes with
    | none => exact h
    | some name => exact ⟨h.utilities, h.media, h.containers⟩
  unfold Sheet.add addRule
  split
  · rename_i _ container hcontainer
    refine { hk with containers := fun entry hentry => ?_ }
    rcases OrderedMap.mem_entries_alter hentry with rfl | hold
    · refine ⟨hr.container container hcontainer, ?_⟩
      cases hb : (sheet.addKeyframes rule.keyframes).containers.get? container with
      | none =>
        have hempty : ContainerBlock.IsContained ⟨∅, ∅⟩ :=
          ⟨Bucket.isContained_empty, fun _ h => absurd h List.not_mem_nil⟩
        exact hempty.add hr
      | some block => exact (hk.containers _ (OrderedMap.get?_eq_some_iff.1 hb)).2.add hr
    · exact hk.containers entry hold
  · rename_i media _ hmedia
    -- the block of the media query, or a new one
    refine { hk with media := fun entry hentry => ?_ }
    rcases OrderedMap.mem_entries_alter hentry with rfl | hold
    · refine ⟨hr.media media hmedia, ?_⟩
      cases hb : (sheet.addKeyframes rule.keyframes).media.get? media.query with
      | none => exact Bucket.isContained_empty.add hr
      | some block => exact (hk.media _ (OrderedMap.get?_eq_some_iff.1 hb)).2.add hr
    · exact hk.media entry hold
  · exact { hk with utilities := hk.utilities.add hr }

/-- **All rules.** -/
theorem isContained_ofRules {rules : List Rule} (h : ∀ rule ∈ rules, rule.IsSettled) :
    (ofRules rules).IsContained := by
  -- induction on the rules, the sheet growing
  induction rules using List.reverseRecOn with
  | nil => exact isContained_empty
  | append_singleton rules rule ih =>
    rw [ofRules_append, List.foldl_cons, List.foldl_nil]
    have hbefore := ih fun r hr => h r (List.mem_append_left _ hr)
    exact hbefore.add (h rule (List.mem_append_right _ (List.mem_singleton_self _)))

/-! ## The text of a sheet -/

/-- The text of a sheet without its components. -/
def renderUtilities (sheet : Sheet) : String :=
  sheet.renderPlain ++ String.join (sheet.sortedMedia.map renderMedia) ++
    String.join (sheet.containers.entries.map renderContainer)

theorem settled_render {bucket : Bucket} (h : bucket.IsContained) {indent : String}
    (hindent : Settled indent) : Settled (bucket.render indent) := by
  refine Text.settled_join fun s hs => ?_
  obtain ⟨entry, hentry, rfl⟩ := List.mem_map.1 hs
  obtain ⟨hbody, hselectors⟩ := h entry hentry
  exact (hindent.append (settled_ruleText hselectors hbody)).append closing_newline.settled

theorem settled_utilitiesLayer {content : String} (h : Settled content) :
    Settled (utilitiesLayer content) :=
  settled_block Text.settled_empty (by decide) h

theorem settled_two : Settled "  " := (Closing.of_all (by decide) (by decide)).settled

theorem settled_four : Settled "    " := (Closing.of_all (by decide) (by decide)).settled

theorem settled_six : Settled "      " := (Closing.of_all (by decide) (by decide)).settled

/-- **The text of a sheet that lets nothing out is settled**, its components apart. -/
theorem settled_renderUtilities {sheet : Sheet} (h : sheet.IsContained) :
    Settled sheet.renderUtilities := by
  refine (Settled.append ?_ ?_).append ?_
  · -- the rules without queries, and the animations
    unfold renderPlain
    split
    · exact Text.settled_empty
    · refine settled_utilitiesLayer ((settled_render h.utilities settled_two).append ?_)
      refine Text.settled_join fun s hs => ?_
      obtain ⟨name, -, hname⟩ := List.mem_filterMap.1 hs
      obtain ⟨text, htext, rfl⟩ := Option.map_eq_some_iff.1 hname
      exact (settled_two.append (Keyframes.settled_text? htext)).append closing_newline.settled
  · -- the media queries
    refine Text.settled_join fun s hs => ?_
    obtain ⟨entry, hentry, rfl⟩ := List.mem_map.1 hs
    obtain ⟨hquery, hrules⟩ := h.media entry (List.mem_mergeSort.1 hentry)
    have hhead : breaksOut ("  " ++ entry.1) = false := by
      rw [Text.breaksOut_append, hquery]
      decide
    exact settled_utilitiesLayer (settled_block settled_two hhead (settled_render hrules settled_four))
  · -- the container queries, with media queries inside
    refine Text.settled_join fun s hs => ?_
    obtain ⟨entry, hentry, rfl⟩ := List.mem_map.1 hs
    obtain ⟨hquery, hrules, hmedia⟩ := h.containers entry hentry
    have hhead : breaksOut ("  " ++ entry.1) = false := by
      rw [Text.breaksOut_append, hquery]
      decide
    refine settled_utilitiesLayer (settled_block settled_two hhead ?_)
    refine (settled_render hrules settled_four).append (Text.settled_join fun t ht => ?_)
    obtain ⟨inner, hinner, rfl⟩ := List.mem_map.1 ht
    have hinnerHead : breaksOut ("    " ++ inner.1) = false := by
      rw [Text.breaksOut_append, (hmedia inner hinner).1]
      decide
    exact settled_block settled_four hinnerHead (settled_render (hmedia inner hinner).2 settled_six)

end Sheet

end AtomicCss
