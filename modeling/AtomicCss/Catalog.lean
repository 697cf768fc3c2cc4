import AtomicCss.Catalog.Color
import AtomicCss.Catalog.Effects
import AtomicCss.Catalog.Flexbox
import AtomicCss.Catalog.Interactivity
import AtomicCss.Catalog.Layout
import AtomicCss.Catalog.Motion
import AtomicCss.Catalog.Sizing
import AtomicCss.Catalog.Typography
import AtomicCss.Trie

/-!
# The catalog of utilities

Every class name with a fixed meaning, family after family. A name may be listed more than once, and the
last entry counts: the sizing utilities, for instance, refine some of the spacing utilities.

* `Catalog.entries` — all entries in order;
* `Catalog.standard` — the trie in which they are looked up.
-/

namespace AtomicCss

abbrev Catalog := Trie Utility

namespace Catalog

/-- All entries, in the order in which later ones replace earlier ones of the same name. -/
def entries : List Entry :=
  Layout.entries ++ Flexbox.entries ++ Spacing.entries ++ Sizing.entries ++ Typography.entries ++
    Color.entries ++ Effects.entries ++ Motion.entries ++ Interactivity.entries

def standard : Catalog :=
  Trie.ofList entries

end Catalog

end AtomicCss
