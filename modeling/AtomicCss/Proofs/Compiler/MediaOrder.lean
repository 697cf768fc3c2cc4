import AtomicCss.Proofs.Compiler.Resolution
import AtomicCss.Proofs.Sheet.MediaOrder
import AtomicCss.Proofs.Sheet.Text
import AtomicCss.Stylesheet
import Mathlib.Data.Nat.Find

/-!
# The order of the media blocks of a page

A media query of a page has a priority, the least one of the rules that stand in it, and a place at which it
is first seen among the tokens. Outside of container queries the blocks are written by priority, and the first
places decide only between those of the same priority, so that the order of the tokens hardly matters. Inside
a container query the first places decide alone.

## The architecture

* **`Compiler.HasPriority`**, **`Compiler.firstSeen`** — priority and first place, said of the tokens without
  a sheet. `hasPriority_iff_of_perm` says that the order of the tokens does not show in the former.
* **`mediaQueries_compile`**, **`pairwise_firstSeen`** — a sheet has the media queries in first-seen order, in
  every place.
* **`Compiler.WritesMedia`** — what holds of the media blocks of a page as they are written.
  `WritesMedia.sublist_iff` reads off which of two blocks is in front.
* **`media_blocks_keep_order`** — reordering the tokens.
* **`nested_media_blocks_keep_token_order`** — the blocks inside container queries, and when they ascend:
  on the page of `sm_before_lg_in_container`, but not on that of `lg_before_sm_in_container`.
-/

namespace AtomicCss.Compiler

variable (compiler : Compiler) (tokens : List String)

/-! ## Priorities and first places -/

/-- The media query that the rule of a token has in a place: inside a container query or, for `none`, outside
of all. -/
def queryIn? (container : Option String) (token : String) : Option String :=
  (compiler.resolve? token).bind (·.queryIn container)

/-- The index of the first token whose rule stands in a media query. -/
def firstSeen (container : Option String) (query : String) : Nat :=
  firstPlace (compiler.queryIn? container) tokens query

/-- The priority of a media query is the least one of the rules that stand in it. -/
def HasPriority (container : Option String) (query : String) (priority : Nat) : Prop :=
  IsLeast {p | compiler.HasRule tokens (·.Ranks container query p)} priority

/-- Media queries in ascending order of priority. -/
def Ascends (container : Option String) (queries : List String) : Prop :=
  queries.Pairwise fun query query' =>
    ∃ priority priority', compiler.HasPriority tokens container query priority ∧
      compiler.HasPriority tokens container query' priority' ∧ priority ≤ priority'

variable {compiler tokens} {tokens' : List String} {container : Option String} {query query' : String}
  {priority priority' : Nat}

theorem HasPriority.unique (h : compiler.HasPriority tokens container query priority)
    (h' : compiler.HasPriority tokens container query priority') : priority = priority' :=
  IsLeast.unique h h'

theorem HasPriority.standsIn (h : compiler.HasPriority tokens container query priority) :
    compiler.HasRule tokens (·.StandsIn container (some query)) := by
  obtain ⟨token, htoken, rule, hrule, hranks⟩ := h.1
  exact ⟨token, htoken, rule, hrule, hranks.standsIn⟩

/-- A media query in which some rule stands has a priority. -/
theorem exists_hasPriority (h : compiler.HasRule tokens (·.StandsIn container (some query))) :
    ∃ priority, compiler.HasPriority tokens container query priority := by
  classical
  obtain ⟨token, htoken, rule, hrule, hstands⟩ := h
  obtain ⟨p, hranks⟩ := hstands.exists_ranks
  have hsome : ∃ p, compiler.HasRule tokens (·.Ranks container query p) :=
    ⟨p, token, htoken, rule, hrule, hranks⟩
  exact ⟨Nat.find hsome, Nat.find_spec hsome, fun q hq => Nat.find_min' hsome hq⟩

theorem hasRule_iff_of_perm (h : tokens.Perm tokens') (property : Rule → Prop) :
    compiler.HasRule tokens property ↔ compiler.HasRule tokens' property := by
  simp only [HasRule, h.mem_iff]

/-- The order of the tokens does not show in a priority. -/
theorem hasPriority_iff_of_perm (h : tokens.Perm tokens') :
    compiler.HasPriority tokens container query priority ↔
      compiler.HasPriority tokens' container query priority := by
  simp only [HasPriority, hasRule_iff_of_perm h]

theorem queryIn?_of_ranks {token : String} {rule : Rule} (hrule : compiler.resolve? token = some rule)
    (hranks : rule.Ranks container query priority) : compiler.queryIn? container token = some query := by
  rw [queryIn?, hrule]
  exact Rule.queryIn_eq_some_iff.2 hranks.standsIn

/-! ## The sheet of a page -/

/-- Components bring no media queries. -/
theorem mediaQueries_compile_eq_ofRules (compiler : Compiler) (tokens : List String)
    (container : Option String) : (compiler.compile tokens).mediaQueries container =
      (Sheet.ofRules (compiler.rules tokens)).mediaQueries container := by
  cases container <;> rfl

/-- **A sheet has the media queries of its tokens in first-seen order**, inside a container query as
outside. -/
theorem mediaQueries_compile (compiler : Compiler) (tokens : List String) (container : Option String) :
    (compiler.compile tokens).mediaQueries container =
      distinct (tokens.filterMap (compiler.queryIn? container)) := by
  have hqueries : (compiler.rules tokens).filterMap (·.queryIn container) =
      (distinct tokens).filterMap (compiler.queryIn? container) := by
    rw [rules, List.filterMap_filterMap]
    rfl
  rw [mediaQueries_compile_eq_ofRules, Sheet.mediaQueries_ofRules, hqueries, distinct_filterMap_distinct]

theorem pairwise_firstSeen (compiler : Compiler) (tokens : List String) (container : Option String) :
    ((compiler.compile tokens).mediaQueries container).Pairwise fun query query' =>
      compiler.firstSeen tokens container query < compiler.firstSeen tokens container query' := by
  rw [mediaQueries_compile]
  exact pairwise_distinct_filterMap ..

theorem mem_mediaQueries_compile :
    query ∈ (compiler.compile tokens).mediaQueries container ↔
      compiler.HasRule tokens (·.StandsIn container (some query)) := by
  rw [mediaQueries_compile_eq_ofRules, Sheet.mem_mediaQueries_ofRules, exists_mem_rules_iff]

/-- A block keeps the priority of its media query. -/
theorem hasPriority_of_get? {block : MediaBlock}
    (h : (compiler.compile tokens).media.get? query = some block) :
    compiler.HasPriority tokens none query block.priority := by
  have h' : (Sheet.ofRules (compiler.rules tokens)).media.get? query = some block := h
  have hleast := Sheet.isLeast_priority_ofRules h'
  simp only [exists_mem_rules_iff] at hleast
  exact hleast

/-- The lines of a block are the rules that stand in its media query. -/
theorem holds_of_get? {block : MediaBlock} (h : (compiler.compile tokens).media.get? query = some block)
    (body selector : String) : block.rules.Holds body selector ↔
      compiler.HasRule tokens fun rule =>
        rule.StandsIn none (some query) ∧ rule.selector = selector ∧ rule.body = body := by
  have hbucket : (Sheet.ofRules (compiler.rules tokens)).bucket none (some query) = block.rules := by
    have h' : (Sheet.ofRules (compiler.rules tokens)).media.get? query = some block := h
    rw [Sheet.bucket, h']
    rfl
  rw [← exists_mem_rules_iff, ← Sheet.holds_ofRules, Sheet.Holds, hbucket]

/-! ## Pages of two tokens

For the rule of `flex` the catalog need not be evaluated, and of two rules in different media queries each
decides on the priority of its own. -/

/-- A rule that makes a flex box, inside these queries. -/
def flexRule (selector : String) (container : Option String) (query : String) (priority : Nat) : Rule where
  selector := selector
  declarations := [.property "display" "flex"]
  media := some ⟨query, priority⟩
  container := container
  keyframes := none

theorem ranks_flexRule (selector : String) (container : Option String) (query : String) (priority : Nat) :
    (flexRule selector container query priority).Ranks container query priority :=
  ⟨rfl, rfl⟩

/-- Behind variants that set queries, the rule of `flex` stands in these. -/
theorem resolve?_flex_of_queries {token selector : String} (variants : List String) (effects : List Variant)
    (hparse : Token.parse token = ⟨variants, "flex"⟩)
    (heffects : variants.mapM (Variant.parse? standard.theme) = some effects)
    (hdraft : effects.foldl Draft.apply (.ofToken token) =
      { ancestors := "", compound := selector, element := none, media := some ⟨query, priority⟩, container }) :
    standard.resolve? token = some (flexRule selector container query priority) := by
  have hselector : ((effects.foldl Draft.apply (.ofToken token)).finish none).selector = selector := by
    rw [hdraft]
    simp [Draft.finish, Draft.subject]
  rw [resolve?_flex_of_mapM catalog_standard hparse heffects, hselector, hdraft]
  rfl

/-- The priority is that of the only rule in the query. -/
theorem hasPriority_pair {token token' : String} {rule rule' : Rule}
    (hrule : compiler.resolve? token = some rule) (hrule' : compiler.resolve? token' = some rule')
    (hranks : rule.Ranks container query priority) (hnot : ¬ rule'.StandsIn container (some query)) :
    compiler.HasPriority [token, token'] container query priority := by
  refine ⟨⟨token, List.mem_cons_self, rule, hrule, hranks⟩, ?_⟩
  rintro other ⟨_, htoken, found, hfound, hother⟩
  rcases List.mem_pair.1 htoken with rfl | rfl
  · obtain rfl := Option.some.inj (hrule.symm.trans hfound)
    exact (hranks.unique hother).le
  · obtain rfl := Option.some.inj (hrule'.symm.trans hfound)
    exact absurd hother.standsIn hnot

/-- Two tokens whose rules stand in one container query make a block of two media blocks. -/
theorem exists_container_pair {token token' outer : String} {rule rule' : Rule}
    (hrule : compiler.resolve? token = some rule) (hrule' : compiler.resolve? token' = some rule')
    (hranks : rule.Ranks (some outer) query priority) (hranks' : rule'.Ranks (some outer) query' priority')
    (hne : query ≠ query') :
    ∃ entry ∈ (compiler.compile [token, token']).containers.entries,
      (compiler.compile [token, token']).mediaQueries (some entry.1) = [query, query'] ∧
        compiler.HasPriority [token, token'] (some entry.1) query priority ∧
        compiler.HasPriority [token, token'] (some entry.1) query' priority' := by
  have hkey : outer ∈ (compiler.compile [token, token']).containers.keys :=
    (Sheet.mem_containers_ofRules _ _).2
      ((exists_mem_rules_iff _ _ _).2 ⟨token, List.mem_cons_self, rule, hrule, hranks.1⟩)
  obtain ⟨entry, hentry, rfl⟩ := List.mem_map.1 hkey
  have hp := hasPriority_pair hrule hrule' hranks (hranks'.not_standsIn hne.symm)
  have hp' := hasPriority_pair hrule' hrule hranks' (hranks.not_standsIn hne)
  rw [hasPriority_iff_of_perm (List.Perm.swap ..)] at hp'
  have hnew : query' ∉ [query] := by simpa using hne.symm
  refine ⟨entry, hentry, ?_, hp, hp'⟩
  rw [mediaQueries_compile, List.filterMap_cons_some (queryIn?_of_ranks hrule hranks),
    List.filterMap_cons_some (queryIn?_of_ranks hrule' hranks'), List.filterMap_nil]
  exact (distinct_concat [query] query').trans (if_neg hnew)

theorem resolve?_lg_in_container : standard.resolve? "@md:lg:flex" =
    some (flexRule ".\\@md\\:lg\\:flex" (some "@container (min-width: 28rem)") "@media (min-width: 64rem)" 3) :=
  resolve?_flex_of_queries ["@md", "lg"]
    [.container "@container (min-width: 28rem)", .media ⟨"@media (min-width: 64rem)", 3⟩] (by decide) (by decide)
    (by decide)

theorem resolve?_sm_in_container : standard.resolve? "@md:sm:flex" =
    some (flexRule ".\\@md\\:sm\\:flex" (some "@container (min-width: 28rem)") "@media (min-width: 40rem)" 1) :=
  resolve?_flex_of_queries ["@md", "sm"]
    [.container "@container (min-width: 28rem)", .media ⟨"@media (min-width: 40rem)", 1⟩] (by decide) (by decide)
    (by decide)

/-! ## Blocks as they are written -/

variable (compiler tokens) in
/-- These are the media blocks of a page, in the order in which they are written. -/
structure WritesMedia (blocks : List (String × MediaBlock)) : Prop where
  /-- The blocks stand behind the rules without queries and in front of the container blocks. -/
  text : (compiler.compile tokens).renderBody =
    (compiler.compile tokens).plainText ++
      String.join (blocks.map fun entry =>
        "@layer utilities \x7b\n" ++
          "  " ++ entry.1 ++ " \x7b\n" ++
          entry.2.rules.lines "    " ++
          "  \x7d\n" ++
          "\x7d\n") ++
      String.join ((compiler.compile tokens).containers.entries.map fun entry =>
        Sheet.containerText entry.1 entry.2.rules entry.2.media.entries) ++
      Sheet.renderComponents (compiler.compile tokens).components
  /-- Every media query has one block. -/
  nodup : (blocks.map Prod.fst).Nodup
  /-- The media queries are those of the rules outside of container queries. -/
  queries : ∀ query, query ∈ blocks.map Prod.fst ↔ compiler.HasRule tokens (·.StandsIn none (some query))
  /-- The lines of a block are the selectors and bodies of the rules that stand in it. -/
  lines : ∀ entry ∈ blocks, ∀ body selector, entry.2.rules.Holds body selector ↔
    compiler.HasRule tokens fun rule =>
      rule.StandsIn none (some entry.1) ∧ rule.selector = selector ∧ rule.body = body
  priority : ∀ entry ∈ blocks, compiler.HasPriority tokens none entry.1 entry.2.priority
  ascends : compiler.Ascends tokens none (blocks.map Prod.fst)
  /-- Blocks of the same priority are in first-seen order. -/
  ties : (blocks.map Prod.fst).Pairwise fun query query' =>
    ∀ priority, compiler.HasPriority tokens none query priority →
      compiler.HasPriority tokens none query' priority →
        compiler.firstSeen tokens none query < compiler.firstSeen tokens none query'

theorem writesMedia_sortedMedia (compiler : Compiler) (tokens : List String) :
    compiler.WritesMedia tokens (compiler.compile tokens).sortedMedia := by
  have hperm := Sheet.map_fst_sortedMedia_perm (compiler.compile tokens)
  have hpriority : ∀ entry ∈ (compiler.compile tokens).sortedMedia,
      compiler.HasPriority tokens none entry.1 entry.2.priority :=
    fun entry hentry => hasPriority_of_get? (Sheet.mem_sortedMedia.1 hentry)
  have horder := Sheet.pairwise_sortedMedia (pairwise_firstSeen compiler tokens none)
  refine ⟨?_, hperm.nodup_iff.2 (OrderedMap.nodup_keys _), fun query => ?_, fun entry hentry => ?_,
    hpriority, ?_, ?_⟩
  · rw [Sheet.renderBody_eq, funext Sheet.renderContainer_eq]
  · rw [hperm.mem_iff]
    show query ∈ (compiler.compile tokens).mediaQueries none ↔ _
    exact mem_mediaQueries_compile
  · exact holds_of_get? (Sheet.mem_sortedMedia.1 hentry)
  · refine List.pairwise_map.2 (horder.imp_of_mem fun ha hb hab => ?_)
    exact ⟨_, _, hpriority _ ha, hpriority _ hb, hab.1⟩
  · refine List.pairwise_map.2 (horder.imp_of_mem fun ha hb hab priority hp hp' => hab.2 ?_)
    rw [(hpriority _ hb).unique hp', (hpriority _ ha).unique hp]

/-- **Of two blocks with different priorities the lower one is in front.** -/
theorem WritesMedia.sublist_iff {blocks : List (String × MediaBlock)}
    (h : compiler.WritesMedia tokens blocks) (hp : compiler.HasPriority tokens none query priority)
    (hp' : compiler.HasPriority tokens none query' priority') (hne : priority ≠ priority') :
    [query, query'].Sublist (blocks.map Prod.fst) ↔ priority < priority' := by
  -- whichever is in front has a priority that is not above the other
  have hle {q q' : String} {n n' : Nat} (hn : compiler.HasPriority tokens none q n)
      (hn' : compiler.HasPriority tokens none q' n') (hsub : [q, q'].Sublist (blocks.map Prod.fst)) :
      n ≤ n' := by
    obtain ⟨m, m', hm, hm', hmm⟩ := List.pairwise_iff_forall_sublist.1 h.ascends hsub
    rwa [hm.unique hn, hm'.unique hn'] at hmm
  constructor
  · intro hsub
    have := hle hp hp' hsub
    omega
  · intro hlt
    have hquery := (h.queries query).2 hp.standsIn
    have hquery' := (h.queries query').2 hp'.standsIn
    have hdiffer : query ≠ query' := by
      rintro rfl
      exact hne (hp.unique hp')
    rcases pair_sublist_or hquery hquery' hdiffer with hsub | hsub
    · exact hsub
    · have := hle hp' hp hsub
      omega

/-- **Reordering the tokens of a page moves no media block past one of another priority.** Both pages have
the same media blocks, with the same priorities and the same lines; both write them as `WritesMedia` says; and
of two blocks with different priorities the same one is in front. -/
theorem media_blocks_keep_order (compiler : Compiler) {tokens tokens' : List String}
    (hperm : tokens.Perm tokens') :
    ∃ blocks blocks', compiler.WritesMedia tokens blocks ∧ compiler.WritesMedia tokens' blocks' ∧
      (∀ query, query ∈ blocks.map Prod.fst ↔ query ∈ blocks'.map Prod.fst) ∧
      (∀ entry ∈ blocks, ∀ entry' ∈ blocks', entry.1 = entry'.1 →
        entry.2.priority = entry'.2.priority ∧
          ∀ body selector, entry.2.rules.Holds body selector ↔ entry'.2.rules.Holds body selector) ∧
      ∀ query query' priority priority', compiler.HasPriority tokens none query priority →
        compiler.HasPriority tokens none query' priority' → priority ≠ priority' →
          ([query, query'].Sublist (blocks.map Prod.fst) ↔
            [query, query'].Sublist (blocks'.map Prod.fst)) := by
  have hblocks := writesMedia_sortedMedia compiler tokens
  have hblocks' := writesMedia_sortedMedia compiler tokens'
  refine ⟨_, _, hblocks, hblocks', fun query => ?_, fun entry hentry entry' hentry' hquery => ⟨?_, ?_⟩,
    fun query query' priority priority' hp hp' hne => ?_⟩
  · rw [hblocks.queries, hblocks'.queries, hasRule_iff_of_perm hperm]
  · have hpriority := hblocks.priority entry hentry
    rw [hasPriority_iff_of_perm hperm, hquery] at hpriority
    exact hpriority.unique (hblocks'.priority entry' hentry')
  · intro body selector
    rw [hblocks.lines entry hentry, hblocks'.lines entry' hentry', hasRule_iff_of_perm hperm, hquery]
  · rw [hblocks.sublist_iff hp hp' hne, hblocks'.sublist_iff ((hasPriority_iff_of_perm hperm).1 hp)
      ((hasPriority_iff_of_perm hperm).1 hp') hne]

theorem resolve?_lg : standard.resolve? "lg:flex" =
    some (flexRule ".lg\\:flex" none "@media (min-width: 64rem)" 3) :=
  resolve?_flex_of_queries ["lg"] [.media ⟨"@media (min-width: 64rem)", 3⟩] (by decide) (by decide) (by decide)

theorem resolve?_sm : standard.resolve? "sm:flex" =
    some (flexRule ".sm\\:flex" none "@media (min-width: 40rem)" 1) :=
  resolve?_flex_of_queries ["sm"] [.media ⟨"@media (min-width: 40rem)", 1⟩] (by decide) (by decide) (by decide)

/-- Whichever of `lg` and `sm` comes first among the tokens, the block of `sm` is in front of that of `lg`, and the
pages are the same. -/
theorem sm_in_front_of_lg :
    ["lg:flex", "sm:flex"].Perm ["sm:flex", "lg:flex"] ∧
    (∃ blocks blocks', standard.WritesMedia ["lg:flex", "sm:flex"] blocks ∧
      standard.WritesMedia ["sm:flex", "lg:flex"] blocks' ∧
      ["@media (min-width: 40rem)", "@media (min-width: 64rem)"].Sublist (blocks.map Prod.fst) ∧
      ["@media (min-width: 40rem)", "@media (min-width: 64rem)"].Sublist (blocks'.map Prod.fst)) ∧
    ∀ tokens ∈ [["lg:flex", "sm:flex"], ["sm:flex", "lg:flex"]], (standard.compile tokens).renderBody =
      "@layer utilities \x7b\n" ++
      "  @media (min-width: 40rem) \x7b\n" ++
      "    .sm\\:flex \x7b display: flex; \x7d\n" ++
      "  \x7d\n" ++
      "\x7d\n" ++
      "@layer utilities \x7b\n" ++
      "  @media (min-width: 64rem) \x7b\n" ++
      "    .lg\\:flex \x7b display: flex; \x7d\n" ++
      "  \x7d\n" ++
      "\x7d\n" := by
  have hperm : ["lg:flex", "sm:flex"].Perm ["sm:flex", "lg:flex"] := List.Perm.swap ..
  have hplg := hasPriority_pair resolve?_lg resolve?_sm (ranks_flexRule ..)
    ((ranks_flexRule ..).not_standsIn (by decide))
  have hpsm := hasPriority_pair resolve?_sm resolve?_lg (ranks_flexRule ..)
    ((ranks_flexRule ..).not_standsIn (by decide))
  rw [← hasPriority_iff_of_perm hperm] at hpsm
  obtain ⟨blocks, blocks', hblocks, hblocks', -, -, hsame⟩ := media_blocks_keep_order standard hperm
  have hfront : ["@media (min-width: 40rem)", "@media (min-width: 64rem)"].Sublist (blocks.map Prod.fst) :=
    (hblocks.sublist_iff hpsm hplg (by decide)).2 (by decide)
  refine ⟨hperm, ⟨blocks, blocks', hblocks, hblocks', hfront, (hsame _ _ _ _ hpsm hplg (by decide)).1 hfront⟩, ?_⟩
  intro tokens htokens
  rcases List.mem_pair.1 htokens with rfl | rfl
  · rw [compile_eq_ofRules (by decide) (.cons resolve?_lg (.cons resolve?_sm .nil)) (by decide +kernel),
      Sheet.renderBody, Sheet.sortedMedia_of_pair rfl]
    decide +kernel
  · rw [compile_eq_ofRules (by decide) (.cons resolve?_sm (.cons resolve?_lg .nil)) (by decide +kernel),
      Sheet.renderBody, Sheet.sortedMedia_of_pair rfl]
    decide +kernel

/-! ## Container blocks -/

variable (compiler tokens) in
/-- These are the media blocks inside the block of a container query, in the order in which they are
written. -/
structure NestsMedia (entry : String × ContainerBlock) (nested : List (String × Bucket)) : Prop where
  /-- The blocks stand behind the rules without a media query. -/
  text : Sheet.renderContainer entry =
    "@layer utilities \x7b\n" ++
      "  " ++ entry.1 ++ " \x7b\n" ++
      entry.2.rules.lines "    " ++
      String.join (nested.map fun inner =>
        "    " ++ inner.1 ++ " \x7b\n" ++ inner.2.lines "      " ++ "    \x7d\n") ++
      "  \x7d\n" ++
      "\x7d\n"
  nodup : (nested.map Prod.fst).Nodup
  queries : ∀ query, query ∈ nested.map Prod.fst ↔
    compiler.HasRule tokens (·.StandsIn (some entry.1) (some query))
  /-- The blocks are in first-seen order. -/
  order : (nested.map Prod.fst).Pairwise fun query query' =>
    compiler.firstSeen tokens (some entry.1) query < compiler.firstSeen tokens (some entry.1) query'

/-- The media queries of a container block are those that the sheet has in its place. -/
theorem keys_media_of_mem {entry : String × ContainerBlock}
    (h : entry ∈ (compiler.compile tokens).containers.entries) :
    entry.2.media.entries.map Prod.fst = (compiler.compile tokens).mediaQueries (some entry.1) := by
  have hget := OrderedMap.get?_eq_some_iff.2 h
  rw [Sheet.mediaQueries, hget]
  rfl

theorem nestsMedia_entries {entry : String × ContainerBlock}
    (h : entry ∈ (compiler.compile tokens).containers.entries) :
    compiler.NestsMedia tokens entry entry.2.media.entries := by
  refine ⟨Sheet.renderContainer_eq entry, entry.2.media.nodup, fun query => ?_, ?_⟩
  · rw [keys_media_of_mem h]
    exact mem_mediaQueries_compile
  · rw [keys_media_of_mem h]
    exact pairwise_firstSeen ..

/-- Media queries in first-seen order ascend if the first places do. -/
theorem ascends_mediaQueries_iff (container : Option String) :
    compiler.Ascends tokens container ((compiler.compile tokens).mediaQueries container) ↔
      ∀ query query' priority priority', compiler.HasPriority tokens container query priority →
        compiler.HasPriority tokens container query' priority' →
          compiler.firstSeen tokens container query < compiler.firstSeen tokens container query' →
            priority ≤ priority' := by
  have horder := pairwise_firstSeen compiler tokens container
  constructor
  · intro hascends query query' priority priority' hp hp' hlt
    have hquery := mem_mediaQueries_compile.2 hp.standsIn
    have hquery' := mem_mediaQueries_compile.2 hp'.standsIn
    have hdiffer : query ≠ query' := by
      rintro rfl
      omega
    rcases pair_sublist_or hquery hquery' hdiffer with hsub | hsub
    · obtain ⟨m, m', hm, hm', hle⟩ := List.pairwise_iff_forall_sublist.1 hascends hsub
      rwa [hm.unique hp, hm'.unique hp'] at hle
    -- the other way round the first places would be, too
    · have hgt := List.pairwise_iff_forall_sublist.1 horder hsub
      omega
  · intro hfirst
    refine horder.imp_of_mem fun hquery hquery' hlt => ?_
    obtain ⟨priority, hp⟩ := exists_hasPriority (mem_mediaQueries_compile.1 hquery)
    obtain ⟨priority', hp'⟩ := exists_hasPriority (mem_mediaQueries_compile.1 hquery')
    exact ⟨priority, priority', hp, hp', hfirst _ _ _ _ hp hp' hlt⟩

/-- **Inside a container query the tokens decide on the order of the media blocks.** The text of a page has a
block for every container query, and the media blocks inside are in first-seen order, whatever their
priorities. They ascend exactly if no media query is first seen in front of one of lower priority. -/
theorem nested_media_blocks_keep_token_order (compiler : Compiler) (tokens : List String) :
    (compiler.compile tokens).renderBody =
      (compiler.compile tokens).plainText ++
        String.join ((compiler.compile tokens).sortedMedia.map fun entry =>
          "@layer utilities \x7b\n" ++
            "  " ++ entry.1 ++ " \x7b\n" ++
            entry.2.rules.lines "    " ++
            "  \x7d\n" ++
            "\x7d\n") ++
        String.join ((compiler.compile tokens).containers.entries.map Sheet.renderContainer) ++
        Sheet.renderComponents (compiler.compile tokens).components ∧
    ∀ entry ∈ (compiler.compile tokens).containers.entries,
      ∃ nested, compiler.NestsMedia tokens entry nested ∧
        (compiler.Ascends tokens (some entry.1) (nested.map Prod.fst) ↔
          ∀ query query' priority priority',
            compiler.HasPriority tokens (some entry.1) query priority →
            compiler.HasPriority tokens (some entry.1) query' priority' →
              compiler.firstSeen tokens (some entry.1) query <
                compiler.firstSeen tokens (some entry.1) query' → priority ≤ priority') := by
  refine ⟨Sheet.renderBody_eq _, fun entry hentry => ⟨entry.2.media.entries, nestsMedia_entries hentry, ?_⟩⟩
  rw [keys_media_of_mem hentry]
  exact ascends_mediaQueries_iff _

/-- The query of `sm` comes first among the tokens, and so the blocks ascend. -/
theorem sm_before_lg_in_container :
    ∃ entry ∈ (standard.compile ["@md:sm:flex", "@md:lg:flex"]).containers.entries,
      ∃ nested, standard.NestsMedia ["@md:sm:flex", "@md:lg:flex"] entry nested ∧
        standard.Ascends ["@md:sm:flex", "@md:lg:flex"] (some entry.1) (nested.map Prod.fst) := by
  obtain ⟨entry, hentry, hqueries, hp, hp'⟩ := exists_container_pair resolve?_sm_in_container
    resolve?_lg_in_container (ranks_flexRule ..) (ranks_flexRule ..) (by decide)
  have hascends : standard.Ascends ["@md:sm:flex", "@md:lg:flex"] (some entry.1)
      ((standard.compile ["@md:sm:flex", "@md:lg:flex"]).mediaQueries (some entry.1)) := by
    rw [hqueries]
    exact List.pairwise_pair.2 ⟨1, 3, hp, hp', by decide⟩
  obtain ⟨nested, hnested, hiff⟩ :=
    (nested_media_blocks_keep_token_order standard ["@md:sm:flex", "@md:lg:flex"]).2 entry hentry
  exact ⟨entry, hentry, nested, hnested, hiff.2 ((ascends_mediaQueries_iff _).1 hascends)⟩

/-- The query of `lg` comes first among the tokens, and so its block is in front of that of `sm`, whose priority
is lower. -/
theorem lg_before_sm_in_container :
    (∃ entry ∈ (standard.compile ["@md:lg:flex", "@md:sm:flex"]).containers.entries,
      ∃ nested, standard.NestsMedia ["@md:lg:flex", "@md:sm:flex"] entry nested ∧
        ¬ standard.Ascends ["@md:lg:flex", "@md:sm:flex"] (some entry.1) (nested.map Prod.fst)) ∧
    (standard.compile ["@md:lg:flex", "@md:sm:flex"]).renderBody =
      "@layer utilities \x7b\n" ++
      "  @container (min-width: 28rem) \x7b\n" ++
      "    @media (min-width: 64rem) \x7b\n" ++
      "      .\\@md\\:lg\\:flex \x7b display: flex; \x7d\n" ++
      "    \x7d\n" ++
      "    @media (min-width: 40rem) \x7b\n" ++
      "      .\\@md\\:sm\\:flex \x7b display: flex; \x7d\n" ++
      "    \x7d\n" ++
      "  \x7d\n" ++
      "\x7d\n" := by
  constructor
  · obtain ⟨entry, hentry, hqueries, hp, hp'⟩ := exists_container_pair resolve?_lg_in_container
      resolve?_sm_in_container (ranks_flexRule ..) (ranks_flexRule ..) (by decide)
    refine ⟨entry, hentry, _, nestsMedia_entries hentry, fun hascends => ?_⟩
    rw [keys_media_of_mem hentry, hqueries] at hascends
    obtain ⟨low, high, hlow, hhigh, hle⟩ := List.pairwise_pair.1 hascends
    rw [hlow.unique hp, hhigh.unique hp'] at hle
    omega
  · rw [compile_eq_ofRules (by decide) (.cons resolve?_lg_in_container (.cons resolve?_sm_in_container .nil))
      (by decide +kernel)]
    decide +kernel

end AtomicCss.Compiler
