import AtomicCss.Sheet

/-!
# The text of a sheet

A body and the selectors that share it stand on one line. The lines of a slot are indented by the queries around it,
and every query opens a block of its own inside the utilities layer. This module spells these texts out, down to the
last brace, and says that a sheet is written by them.

## The architecture

* **`Bucket.lines`** — the lines of a slot.
* **`Sheet.plainText`**, **`Sheet.containerText`** — the block without queries, and that of a container query with the
  media queries inside.
* **`Sheet.renderMedia_eq`** — the block of a media query.
* **`Sheet.renderBody_eq`** — a sheet is these blocks, in this order, and its components behind them.
-/

namespace AtomicCss

/-- A line for every body, with its selectors in front. -/
def Bucket.lines (indent : String) (bucket : Bucket) : String :=
  String.join (bucket.entries.map fun (body, selectors) =>
    indent ++ ", ".intercalate selectors.toList ++ " \x7b " ++ body ++ " \x7d\n")

theorem Bucket.render_eq_lines (indent : String) (bucket : Bucket) : bucket.render indent = bucket.lines indent := by
  have hline (selectors : OrderedSet String) (body : String) :
      indent ++ ruleText (", ".intercalate selectors.toList) body ++ "\n" =
        indent ++ ", ".intercalate selectors.toList ++ " \x7b " ++ body ++ " \x7d\n" := by
    simp only [ruleText, braced, String.append_assoc]
    rfl
  simp only [render, lines, hline]

namespace Sheet

/-- The rules without queries and the animations, which need no block if there are none. -/
def plainText (sheet : Sheet) : String :=
  if sheet.utilities.entries = [] ∧ sheet.keyframes.toList = [] then ""
  else
    "@layer utilities \x7b\n" ++ sheet.utilities.lines "  " ++
      String.join (sheet.keyframes.toList.filterMap fun name =>
        (Keyframes.text? name).map fun text => "  " ++ text ++ "\n") ++ "\x7d\n"

/-- The block of a container query: its rules, and behind them a block for every media query inside. -/
def containerText (query : String) (rules : Bucket) (nested : List (String × Bucket)) : String :=
  "@layer utilities \x7b\n" ++
    "  " ++ query ++ " \x7b\n" ++
    rules.lines "    " ++
    String.join (nested.map fun (inner, bucket) =>
      "    " ++ inner ++ " \x7b\n" ++ bucket.lines "      " ++ "    \x7d\n") ++
    "  \x7d\n" ++
    "\x7d\n"

theorem utilitiesLayer_eq (content : String) :
    utilitiesLayer content = "@layer utilities \x7b\n" ++ content ++ "\x7d\n" := by
  rw [utilitiesLayer, block, String.empty_append, String.append_empty]
  rfl

/-- A closing brace is indented as its heading. -/
theorem block_eq {indent close : String} (hclose : indent ++ "\x7d\n" = close) (heading content : String) :
    block indent heading content = indent ++ heading ++ " \x7b\n" ++ content ++ close := by
  rw [block, ← hclose]
  simp only [String.append_assoc]

theorem renderPlain_eq (sheet : Sheet) : sheet.renderPlain = sheet.plainText := by
  simp only [renderPlain, plainText, utilitiesLayer_eq, Bucket.render_eq_lines, String.append_assoc,
    OrderedMap.isEmpty, OrderedSet.isEmpty, Bool.and_eq_true, List.isEmpty_iff]

theorem renderMedia_eq (entry : String × MediaBlock) :
    renderMedia entry =
      "@layer utilities \x7b\n" ++
        "  " ++ entry.1 ++ " \x7b\n" ++
        entry.2.rules.lines "    " ++
        "  \x7d\n" ++
        "\x7d\n" := by
  have hclose : "  " ++ "\x7d\n" = "  \x7d\n" := rfl
  rw [renderMedia, utilitiesLayer_eq, block_eq hclose, Bucket.render_eq_lines]
  simp only [String.append_assoc]

theorem renderContainer_eq (entry : String × ContainerBlock) :
    renderContainer entry = containerText entry.1 entry.2.rules entry.2.media.entries := by
  have hclose : "  " ++ "\x7d\n" = "  \x7d\n" := rfl
  have hnested : "    " ++ "\x7d\n" = "    \x7d\n" := rfl
  unfold renderContainer containerText
  rw [utilitiesLayer_eq, block_eq hclose, Bucket.render_eq_lines]
  simp only [block_eq hnested, Bucket.render_eq_lines]
  simp only [String.append_assoc]

/-- **A sheet is written block after block**: the rules without queries, the media blocks as they are sorted, the
container blocks, and the components. -/
theorem renderBody_eq (sheet : Sheet) :
    sheet.renderBody =
      sheet.plainText ++
        String.join (sheet.sortedMedia.map fun entry =>
          "@layer utilities \x7b\n" ++
            "  " ++ entry.1 ++ " \x7b\n" ++
            entry.2.rules.lines "    " ++
            "  \x7d\n" ++
            "\x7d\n") ++
        String.join (sheet.containers.entries.map renderContainer) ++
        renderComponents sheet.components := by
  rw [renderBody, renderPlain_eq]
  simp only [← renderMedia_eq]

end Sheet

end AtomicCss
