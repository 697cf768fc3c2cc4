import AtomicCss.Catalog.Entry

/-!
# Flexbox and grid utilities

Direction, wrapping, growth, order, grid tracks and lines, and alignment.
-/

namespace AtomicCss.Catalog.Flexbox

def directions : List (String × String) :=
  [("row", "row"), ("row-reverse", "row-reverse"), ("col", "column"),
   ("col-reverse", "column-reverse")]

def wraps : List (String × String) :=
  [("wrap", "wrap"), ("wrap-reverse", "wrap-reverse"), ("nowrap", "nowrap")]

def shorthands : List (String × String) :=
  [("1", "1 1 0%"), ("auto", "1 1 auto"), ("initial", "0 1 auto"), ("none", "none")]

def gridFlows : List (String × String) :=
  [("row", "row"), ("col", "column"), ("dense", "dense"), ("row-dense", "row dense"),
   ("col-dense", "column dense")]

def autoTracks : List (String × String) :=
  [("auto", "auto"), ("min", "min-content"), ("max", "max-content"), ("fr", "minmax(0, 1fr)")]

def justifyContent : List (String × String) :=
  [("normal", "normal"), ("start", "flex-start"), ("end", "flex-end"), ("center", "center"),
   ("between", "space-between"), ("around", "space-around"), ("evenly", "space-evenly"),
   ("stretch", "stretch")]

/-- Alignment of items along the inline axis. -/
def justifyItems : List (String × String) :=
  [("start", "start"), ("end", "end"), ("center", "center"), ("stretch", "stretch"),
   ("normal", "normal")]

/-- Alignment of one item along the inline axis. -/
def justifySelf : List (String × String) :=
  [("auto", "auto"), ("start", "start"), ("end", "end"), ("center", "center"),
   ("stretch", "stretch")]

/-- Alignment of items along the cross axis. -/
def alignItems : List (String × String) :=
  [("start", "flex-start"), ("end", "flex-end"), ("center", "center"), ("baseline", "baseline"),
   ("stretch", "stretch")]

def alignContent : List (String × String) :=
  [("normal", "normal"), ("center", "center"), ("start", "flex-start"), ("end", "flex-end"),
   ("between", "space-between"), ("around", "space-around"), ("evenly", "space-evenly"),
   ("baseline", "baseline"), ("stretch", "stretch")]

/-- Alignment of one item along the cross axis. -/
def alignSelf : List (String × String) :=
  [("auto", "auto"), ("start", "flex-start"), ("end", "flex-end"), ("center", "center"),
   ("stretch", "stretch"), ("baseline", "baseline")]

def places : List (String × String) :=
  [("start", "start"), ("end", "end"), ("center", "center"), ("stretch", "stretch")]

def placeContent : List (String × String) :=
  [("between", "space-between"), ("around", "space-around"), ("evenly", "space-evenly"),
   ("baseline", "baseline")]

def growth : List Entry :=
  [entry "grow" [("flex-grow", "1")], entry "grow-0" [("flex-grow", "0")],
   entry "shrink" [("flex-shrink", "1")], entry "shrink-0" [("flex-shrink", "0")]] ++
  twelve.map (fun n => entry (member "order" n) [("order", n)]) ++
  [entry "order-first" [("order", "-9999")], entry "order-last" [("order", "9999")],
   entry "order-none" [("order", "0")]]

/-- Equal grid tracks, and spans over them, in so many parts. -/
def tracks (n : String) : List Entry :=
  let template := "repeat(" ++ n ++ ", minmax(0, 1fr))"
  let span := "span " ++ n ++ " / span " ++ n
  [entry (member "grid-cols" n) [("grid-template-columns", template)],
   entry (member "grid-rows" n) [("grid-template-rows", template)],
   entry (member "col-span" n) [("grid-column", span)],
   entry (member "row-span" n) [("grid-row", span)]]

def lines (n : String) : List Entry :=
  [entry (member "col-start" n) [("grid-column-start", n)],
   entry (member "col-end" n) [("grid-column-end", n)],
   entry (member "row-start" n) [("grid-row-start", n)],
   entry (member "row-end" n) [("grid-row-end", n)]]

def grid : List Entry :=
  twelve.flatMap tracks ++ thirteen.flatMap lines ++
  [entry "grid-cols-none" [("grid-template-columns", "none")],
   entry "grid-cols-subgrid" [("grid-template-columns", "subgrid")],
   entry "grid-rows-none" [("grid-template-rows", "none")],
   entry "grid-rows-subgrid" [("grid-template-rows", "subgrid")],
   entry "col-auto" [("grid-column", "auto")],
   entry "col-span-full" [("grid-column", "1 / -1")],
   entry "col-start-auto" [("grid-column-start", "auto")],
   entry "col-end-auto" [("grid-column-end", "auto")],
   entry "row-auto" [("grid-row", "auto")],
   entry "row-span-full" [("grid-row", "1 / -1")],
   entry "row-start-auto" [("grid-row-start", "auto")],
   entry "row-end-auto" [("grid-row-end", "auto")]] ++
  scaleEntries "grid-flow" ["grid-auto-flow"] gridFlows ++
  scaleEntries "auto-cols" ["grid-auto-columns"] autoTracks ++
  scaleEntries "auto-rows" ["grid-auto-rows"] autoTracks

def entries : List Entry :=
  scaleEntries "flex" ["flex-direction"] directions ++
  scaleEntries "flex" ["flex-wrap"] wraps ++
  scaleEntries "flex" ["flex"] shorthands ++
  growth ++ grid ++
  scaleEntries "justify" ["justify-content"] justifyContent ++
  scaleEntries "justify-items" ["justify-items"] justifyItems ++
  scaleEntries "justify-self" ["justify-self"] justifySelf ++
  scaleEntries "items" ["align-items"] alignItems ++
  scaleEntries "content" ["align-content"] alignContent ++
  scaleEntries "self" ["align-self"] alignSelf ++
  scaleEntries "place-content" ["place-content"] places ++
  scaleEntries "place-content" ["place-content"] placeContent ++
  scaleEntries "place-items" ["place-items"] places ++
  scaleEntries "place-self" ["place-self"] places ++
  [entry "place-self-auto" [("place-self", "auto")]]

end AtomicCss.Catalog.Flexbox
