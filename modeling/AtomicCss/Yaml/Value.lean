import AtomicCss.Numeric.Decimal
import AtomicCss.Numeric.Shortest
import AtomicCss.Yaml.Node

/-!
# Typed values

A plain scalar is typed by its spelling: null, a boolean, an integer, a floating-point number, and
otherwise a string. A core tag asks for one type, and any other scalar is a string. A local tag, one that
begins with `!`, is kept beside the value by its name. Numbers forget their spelling and are written back
in one form.

* `Value.ofPlain?` — the value of a plain scalar;
* `localName?` — the name in a local tag, which only a local tag has (`isLocal_of_localName?`);
* `Document.value?` — the value of a node, aliases followed;
* `Value.same` — when two values are the same key;
* `Value.text?` — how a scalar value is written back.
-/

namespace AtomicCss.Yaml

inductive Number where
  /-- An integer from `-2 ^ 63` up to `2 ^ 64 - 1`. -/
  | integer (n : Int)
  /-- A finite binary64 number; zero has a sign. -/
  | float (negative : Bool) (magnitude : Binary64)
  | infinity (negative : Bool)
  | nan
  deriving DecidableEq, Repr, Inhabited

inductive Value where
  | null
  | bool (b : Bool)
  | number (n : Number)
  | string (s : String)
  | sequence (items : List Value)
  | mapping (entries : List (Value × Value))
  /-- A value with a tag of its own. -/
  | tagged (tag : String) (inner : Value)
  deriving Repr, Inhabited

/-! ## Spellings -/

/-- Whether a text spells null; an empty scalar is null too, but that is no spelling. -/
def spellsNull (s : String) : Bool :=
  ["null", "Null", "NULL", "~"].contains s

/-- The truth value that a text spells. -/
def spelledBool? (s : String) : Option Bool :=
  if ["true", "True", "TRUE"].contains s then some true
  else if ["false", "False", "FALSE"].contains s then some false
  else none

/-- The number that digits in a base denote: at least one digit, and nothing else. -/
def digitsIn? (base : Nat) (cs : List Char) : Option Nat :=
  if cs.isEmpty then none
  else
    cs.foldlM (fun n c => do
      let d ← hexValue? c
      if d < base then some (base * n + d) else none) 0

/-- A number behind `0x`, `0o` or `0b`. -/
def basedNumber? : List Char → Option Nat
  | '0' :: 'x' :: cs => digitsIn? 16 cs
  | '0' :: 'o' :: cs => digitsIn? 8 cs
  | '0' :: 'b' :: cs => digitsIn? 2 cs
  | _ => none

/-- Whether digits have a zero in front that makes them a string. -/
def hasLeadingZero : List Char → Bool
  | '0' :: c :: cs => (c :: cs).all Char.isDigit
  | _ => false

/-- A natural number in base ten, without a leading zero, or in another base behind its mark. -/
def spelledNat? (cs : List Char) : Option Nat :=
  (basedNumber? cs).or (if hasLeadingZero cs then none else digitsIn? 10 cs)

/-- The integer that a text spells, of any size. -/
def spelledInt? (s : String) : Option Int :=
  match s.toList with
  | '-' :: cs => (spelledNat? cs).map fun n => -(n : Int)
  | '+' :: cs => (spelledNat? cs).map Int.ofNat
  | cs => (spelledNat? cs).map Int.ofNat

/-- Whether an integer fits into 64 bits, signed or not. -/
def fits64 (n : Int) : Bool :=
  -(twoPow 63 : Int) ≤ n && n < twoPow 64

/-- Whether an integer fits into 128 bits, signed or not. -/
def fits128 (n : Int) : Bool :=
  -(twoPow 127 : Int) ≤ n && n < twoPow 128

/-- The floating-point number that a text spells. A decimal that overflows spells none. -/
def spelledFloat? (s : String) : Option Number :=
  if [".inf", ".Inf", ".INF", "+.inf", "+.Inf", "+.INF"].contains s then some (.infinity false)
  else if ["-.inf", "-.Inf", "-.INF"].contains s then some (.infinity true)
  else if [".nan", ".NaN", ".NAN"].contains s then some .nan
  else do
    let d ← Decimal.parse? s
    let magnitude ← d.nearest
    return .float d.negative magnitude

/-- Whether a text is digits that a leading zero makes a string, a sign in front apart. -/
def isZeroPadded (s : String) : Bool :=
  hasLeadingZero (Decimal.readSign s.toList).2

/-- The integer that a text spells: `none` if it spells none, and otherwise nothing inside for one that
does not fit into 64 bits. An integer beyond 128 bits is left to be read as a decimal. -/
def integer? (s : String) : Option (Option Value) :=
  match spelledInt? s with
  | none => none
  | some n =>
    if fits64 n then some (some (.number (.integer n)))
    else if fits128 n then some none
    else none

/-- The value of a plain scalar; `none` for an integer that does not fit. -/
def Value.ofPlain? (s : String) : Option Value :=
  if s.isEmpty || spellsNull s then some .null
  else
    match spelledBool? s with
    | some b => some (.bool b)
    | none =>
      match integer? s with
      | some n => n
      | none =>
        if isZeroPadded s then some (.string s)
        else
          match spelledFloat? s with
          | some n => some (.number n)
          | none => some (.string s)

/-- What the tags of the core schema begin with. -/
def coreTag (name : String) : String :=
  "tag:yaml.org,2002:" ++ name

/-- Whether octets, kept as the characters of their numbers, are a text in UTF-8. -/
def isUtf8 (octets : List Char) : Bool :=
  (String.fromUTF8? ⟨(octets.map fun c => c.toNat.toUInt8).toArray⟩).isSome

/-- Whether a tag is local to its document. -/
def isLocal (tag : String) : Bool :=
  tag.toList.head? == some '!'

/-- The name in a local tag: what stands behind the `!`, or a `!` that stands alone. A tag that is no text
has no name. -/
def localName? (tag : String) : Option String :=
  match tag.toList with
  | ['!'] => some "!"
  | '!' :: name => if isUtf8 name then some (String.ofList name) else none
  | _ => none

/-- Only a local tag has a name. -/
theorem isLocal_of_localName? {tag name : String} (h : localName? tag = some name) :
    isLocal tag = true := by
  unfold localName? at h
  unfold isLocal
  split at h <;> simp_all

/-- The value of a scalar without a tag: a plain one is typed by its spelling. -/
def Value.ofUntagged? (isPlain : Bool) (s : String) : Option Value :=
  if isPlain then ofPlain? s else some (.string s)

/-- The value of a scalar. A tag of the core schema has to fit the text, and any other makes it a string. A
local tag is kept by its name, and one without a name is passed over. -/
def Value.ofScalar? (tag : Option String) (isPlain : Bool) (s : String) : Option Value :=
  match tag with
  | none => ofUntagged? isPlain s
  | some tag =>
    match localName? tag with
    | some name => (ofUntagged? isPlain s).map (.tagged name)
    | none =>
      if isLocal tag then ofUntagged? isPlain s
      else if tag = coreTag "bool" then (spelledBool? s).map .bool
      else if tag = coreTag "int" then (integer? s).join
      else if tag = coreTag "float" then (spelledFloat? s).map .number
      else if tag = coreTag "null" then (if spellsNull s then some .null else none)
      else some (.string s)

/-! ## When two values are one key -/

/-- Whether two numbers are one: zeros are, whatever their signs, and an integer is no float. -/
def Number.same : Number → Number → Bool
  | .float s x, .float t y => (x.mantissa == 0 && y.mantissa == 0) || (s == t && x == y)
  | m, n => m == n

/-- The name of a tag without a `!` in front of it; one that stands alone is the name. -/
def bareName (name : String) : List Char :=
  match name.toList with
  | '!' :: c :: cs => c :: cs
  | cs => cs

mutual

/-- Whether two values are one key. Names of tags are compared bare, and mappings whatever the order of
their entries. -/
def Value.same : Value → Value → Bool
  | .null, .null => true
  | .bool a, .bool b => a == b
  | .number m, .number n => m.same n
  | .string s, .string t => s == t
  | .sequence l, .sequence r => sameItems l r
  | .mapping l, .mapping r => l.length == r.length && sameEntries l r
  | .tagged s a, .tagged t b => bareName s == bareName t && a.same b
  | _, _ => false

/-- Whether two sequences hold the same values. -/
def sameItems : List Value → List Value → Bool
  | [], [] => true
  | a :: l, b :: r => a.same b && sameItems l r
  | _, _ => false

/-- Whether every entry of the one mapping is an entry of the other. -/
def sameEntries : List (Value × Value) → List (Value × Value) → Bool
  | [], _ => true
  | (k, v) :: l, r => r.any (fun (k', v') => k.same k' && v.same v') && sameEntries l r

end

/-! ## Nodes -/

/-- Reading with a bound on how often aliases are followed. -/
abbrev Bounded := StateT Nat Option

/-- How often aliases may be followed in a document: a hundred times its size. -/
def Document.bound (doc : Document) : Nat :=
  match doc.root with
  | some root => 100 * root.size
  | none => 0

/-- The node that a node stands for: an alias is followed, at the cost of one. -/
def Document.follow (doc : Document) : Node → Bounded Node
  | .reference slot => do
    let left ← get
    if left = 0 then failure
    else
      set (left - 1)
      doc.target? slot
  | node => pure node

/-- The entries of a mapping, of which no two may have the same key. -/
def checkKeys : List (Value × Value) → Bool
  | [] => true
  | (k, _) :: rest => !rest.any (fun (k', _) => k.same k') && checkKeys rest

/-- A value with the name of its node's local tag, if it has one. -/
def withTag (tag : Option String) (value : Value) : Value :=
  match tag.bind localName? with
  | some name => .tagged name value
  | none => value

/-- The value of a node in which collections are nested at most `depth` deep. -/
def Document.value? (doc : Document) : Nat → Node → Bounded Value
  | depth, node => do
    match ← doc.follow node with
    | .scalar _ tag isPlain text => Value.ofScalar? tag isPlain text
    | .sequence _ tag items =>
      match depth with
      | 0 => failure
      | depth + 1 =>
        let items ← items.mapM (value? doc depth)
        return withTag tag (.sequence items)
    | .mapping _ tag entries =>
      match depth with
      | 0 => failure
      | depth + 1 =>
        let entries ← entries.mapM fun (k, v) => do
          let k ← value? doc depth k
          let v ← value? doc depth v
          return (k, v)
        if checkKeys entries then return withTag tag (.mapping entries) else failure
    | .reference _ => failure

/-! ## Writing back -/

/-- How floating-point numbers are written: positionally while the decimal point stands at most sixteen
places behind the first digit or at most four zeros in front of it, and otherwise with an exponent. -/
structure FloatStyle where
  /-- The most digits in front of a positional decimal point. -/
  wholeDigits : Int := 16
  /-- The most zeros between a positional decimal point and the first digit. -/
  leadingZeros : Int := 4

/-- A natural number in decimal digits. -/
def decimalDigits (n : Nat) : String :=
  String.ofList (Nat.toDigits 10 n)

/-- An integer in decimal digits, with its sign. -/
def decimalInt (n : Int) : String :=
  if n < 0 then "-" ++ decimalDigits n.natAbs else decimalDigits n.natAbs

def zeros (count : Int) : String :=
  String.ofList (List.replicate count.toNat '0')

/-- The positive number `digits * 10 ^ power` in a style. -/
def FloatStyle.text (style : FloatStyle) (digits : Nat) (power : Int) : String :=
  let cs := Nat.toDigits 10 digits
  let point : Int := cs.length + power
  if 0 ≤ power ∧ point ≤ style.wholeDigits then String.ofList cs ++ zeros power ++ ".0"
  else if 0 < point ∧ point ≤ style.wholeDigits then
    String.ofList (cs.take point.toNat) ++ "." ++ String.ofList (cs.drop point.toNat)
  else if -style.leadingZeros ≤ point ∧ point ≤ 0 then "0." ++ zeros (-point) ++ String.ofList cs
  else if cs.length = 1 then String.ofList cs ++ "e" ++ decimalInt power
  else
    String.ofList (cs.take 1) ++ "." ++ String.ofList (cs.drop 1) ++ "e" ++ decimalInt (point - 1)

def Number.text : Number → String
  | .integer n => decimalInt n
  | .float negative magnitude =>
    let sign := if negative then "-" else ""
    if magnitude.mantissa = 0 then sign ++ "0.0"
    else
      let (digits, power) := magnitude.shortest
      sign ++ FloatStyle.text {} digits power
  | .infinity false => ".inf"
  | .infinity true => "-.inf"
  | .nan => ".nan"

/-- The text of a scalar value; null, collections and tagged values have none. -/
def Value.text? : Value → Option String
  | .string s => some s
  | .number n => some n.text
  | .bool true => some "true"
  | .bool false => some "false"
  | _ => none

end AtomicCss.Yaml
