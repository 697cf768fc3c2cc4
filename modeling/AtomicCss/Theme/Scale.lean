/-!
# The default design scale

The entries of the default theme, colors apart. The tables of breakpoints and containers also stand in
for names that a theme does not define, and several catalogs of utilities are written over them.
-/

namespace AtomicCss.Scale

/-- Minimum widths of the responsive breakpoints. -/
def breakpoints : List (String × String) :=
  [("sm", "40rem"), ("md", "48rem"), ("lg", "64rem"), ("xl", "80rem"), ("2xl", "96rem"),
   ("3xl", "120rem")]

/-- Minimum widths of the container sizes. -/
def containers : List (String × String) :=
  [("3xs", "16rem"), ("2xs", "18rem"), ("xs", "20rem"), ("sm", "24rem"), ("md", "28rem"),
   ("lg", "32rem"), ("xl", "36rem"), ("2xl", "42rem"), ("3xl", "48rem"), ("4xl", "56rem"),
   ("5xl", "64rem"), ("6xl", "72rem"), ("7xl", "80rem")]

def radius : List (String × String) :=
  [("xs", "0.125rem"), ("sm", "0.25rem"), ("md", "0.375rem"), ("lg", "0.5rem"), ("xl", "0.75rem"),
   ("2xl", "1rem"), ("3xl", "1.5rem"), ("4xl", "2rem")]

/-- The type scale: name, font size and line height. -/
def text : List (String × String × String) :=
  [("xs", "0.75rem", "calc(1 / 0.75)"), ("sm", "0.875rem", "calc(1.25 / 0.875)"),
   ("base", "1rem", "calc(1.5 / 1)"), ("lg", "1.125rem", "calc(1.75 / 1.125)"),
   ("xl", "1.25rem", "calc(1.75 / 1.25)"), ("2xl", "1.5rem", "calc(2 / 1.5)"),
   ("3xl", "1.875rem", "calc(2.25 / 1.875)"), ("4xl", "2.25rem", "calc(2.5 / 2.25)"),
   ("5xl", "3rem", "1"), ("6xl", "3.75rem", "1"), ("7xl", "4.5rem", "1"), ("8xl", "6rem", "1"),
   ("9xl", "8rem", "1")]

def fonts : List (String × String) :=
  [("sans",
    "ui-sans-serif, system-ui, sans-serif, \"Apple Color Emoji\", " ++
      "\"Segoe UI Emoji\", \"Segoe UI Symbol\", \"Noto Color Emoji\""),
   ("serif",
    "ui-serif, Georgia, Cambria, \"Times New Roman\", Times, serif"),
   ("mono",
    "ui-monospace, SFMono-Regular, Menlo, Monaco, Consolas, " ++
      "\"Liberation Mono\", \"Courier New\", monospace")]

def fontWeights : List (String × String) :=
  [("thin", "100"), ("extralight", "200"), ("light", "300"), ("normal", "400"), ("medium", "500"),
   ("semibold", "600"), ("bold", "700"), ("extrabold", "800"), ("black", "900")]

def shadows : List (String × String) :=
  [("2xs", "0 1px rgb(0 0 0 / 0.05)"),
   ("xs", "0 1px 2px 0 rgb(0 0 0 / 0.05)"),
   ("sm", "0 1px 3px 0 rgb(0 0 0 / 0.1), 0 1px 2px -1px rgb(0 0 0 / 0.1)"),
   ("md", "0 4px 6px -1px rgb(0 0 0 / 0.1), 0 2px 4px -2px rgb(0 0 0 / 0.1)"),
   ("lg", "0 10px 15px -3px rgb(0 0 0 / 0.1), 0 4px 6px -4px rgb(0 0 0 / 0.1)"),
   ("xl", "0 20px 25px -5px rgb(0 0 0 / 0.1), 0 8px 10px -6px rgb(0 0 0 / 0.1)"),
   ("2xl", "0 25px 50px -12px rgb(0 0 0 / 0.25)"),
   ("inner", "inset 0 2px 4px 0 rgb(0 0 0 / 0.05)")]

def zIndex : List (String × String) :=
  [("0", "0"), ("10", "10"), ("20", "20"), ("30", "30"), ("40", "40"), ("50", "50")]

def easings : List (String × String) :=
  [("in", "cubic-bezier(0.4, 0, 1, 1)"),
   ("out", "cubic-bezier(0, 0, 0.2, 1)"),
   ("in-out", "cubic-bezier(0.4, 0, 0.2, 1)")]

def durations : List (String × String) :=
  [("75", "75ms"), ("100", "100ms"), ("150", "150ms"), ("200", "200ms"), ("300", "300ms"),
   ("500", "500ms"), ("700", "700ms"), ("1000", "1000ms")]

/-- The unit of the spacing scale. -/
def spacing : String :=
  "0.25rem"

end AtomicCss.Scale
