import CardRules.Json.Tree

/-!
# From text to trees

`Document.read` takes a text apart into a tree and what stands behind it.  It never fails: where the
text is broken the tree has a fault, `truncated` if the text ends too early and `malformed`
otherwise, and text behind a fault that ends everything is not looked at.

Tokens are read first: a string into characters and UTF-16 escapes, a number into its digits.  Their
values come second, because a token can be well formed and yet have no value: half a surrogate pair,
or a number that is too large.  At most 127 containers may be nested in a value that is read.
-/

namespace CardRules

open Json

/-- What is wrong with a text. -/
inductive Fault where
  /-- Something stands where it must not. -/
  | malformed
  /-- The text ends too early. -/
  | truncated
deriving DecidableEq

namespace Reader

/-- What a reader of one value comes to: the value, and the text behind it unless the text cannot be
followed any further. -/
abbrev Step := Tree Fault × Option (List Char)

/-- A value with the same fault whether it is read or skipped. -/
def stop (read skip label : Fault) : Step :=
  (.broken ⟨read, some skip, label⟩, none)

/-- Whether a character is blank between tokens. -/
def isBlank (c : Char) : Bool :=
  c = ' ' || c = '\n' || c = '\t' || c = '\r'

/-- The text behind blanks. -/
def skipBlanks (cs : List Char) : List Char :=
  cs.dropWhile isBlank

/-! ### Strings -/

/-- A character of a string, or one of the 16-bit units that `\u` escapes give. -/
inductive Piece where
  | char (c : Char)
  | unit (n : Nat)

/-- The value of a hexadecimal digit. -/
def hexDigit? (c : Char) : Option Nat :=
  if '0' ≤ c ∧ c ≤ '9' then some (c.toNat - '0'.toNat)
  else if 'a' ≤ c ∧ c ≤ 'f' then some (c.toNat - 'a'.toNat + 10)
  else if 'A' ≤ c ∧ c ≤ 'F' then some (c.toNat - 'A'.toNat + 10)
  else none

/-- The value of four hexadecimal digits. -/
def hex4? (a b c d : Char) : Option Nat := do
  return (((← hexDigit? a) * 16 + (← hexDigit? b)) * 16 + (← hexDigit? c)) * 16 + (← hexDigit? d)

/-- The character of a two-character escape. -/
def escaped? : Char → Option Char
  | '"' => some '"'
  | '\\' => some '\\'
  | '/' => some '/'
  | 'b' => some '\x08'
  | 'f' => some '\x0c'
  | 'n' => some '\n'
  | 'r' => some '\r'
  | 't' => some '\t'
  | _ => none

/-- The fault of an escape without four hexadecimal digits: the text ends too early if fewer than
four bytes are left. -/
def shortEscape (cs : List Char) : Fault :=
  if (String.ofList cs).utf8ByteSize < 4 then .truncated else .malformed

/-- The pieces of a string up to its closing quote, the fault it ends with if it has no such, and
the text behind it. -/
def pieces : List Char → List Piece × Option Fault × List Char
  | [] => ([], some .truncated, [])
  | '"' :: rest => ([], none, rest)
  | ['\\'] => ([], some .truncated, [])
  | '\\' :: 'u' :: a :: b :: c :: d :: rest =>
    match hex4? a b c d with
    | some n =>
      let (ps, fault, rest) := pieces rest
      (.unit n :: ps, fault, rest)
    | none => ([], some .malformed, [])
  | '\\' :: 'u' :: rest => ([], some (shortEscape rest), [])
  | '\\' :: e :: rest =>
    match escaped? e with
    | some c =>
      let (ps, fault, rest) := pieces rest
      (.char c :: ps, fault, rest)
    | none => ([], some .malformed, [])
  | c :: rest =>
    if c.toNat < 0x20 then ([], some .malformed, [])
    else
      let (ps, fault, rest) := pieces rest
      (.char c :: ps, fault, rest)

/-- Whether a unit is the first half of a surrogate pair. -/
def isLead (n : Nat) : Bool := 0xD800 ≤ n && n ≤ 0xDBFF

/-- Whether a unit is the second half of a surrogate pair. -/
def isTrail (n : Nat) : Bool := 0xDC00 ≤ n && n ≤ 0xDFFF

/-- The characters that pieces stand for, or the first fault: half a surrogate pair, or the one that
the string ends with. -/
def characters (final : Option Fault) : List Piece → Except Fault (List Char)
  | [] =>
    match final with
    | some f => .error f
    | none => .ok []
  | .char c :: rest => (c :: ·) <$> characters final rest
  | [.unit n] =>
    if isTrail n then .error .malformed
    else if isLead n then .error (final.getD .malformed)
    else match final with
      | some f => .error f
      | none => .ok [Char.ofNat n]
  | .unit n :: .unit m :: rest =>
    if isTrail n then .error .malformed
    else if isLead n then
      if isTrail m then
        (Char.ofNat ((n - 0xD800) * 0x400 + (m - 0xDC00) + 0x10000) :: ·) <$> characters final rest
      else .error .malformed
    else (Char.ofNat n :: ·) <$> characters final (.unit m :: rest)
  | .unit n :: .char c :: rest =>
    if isTrail n || isLead n then .error .malformed
    else (Char.ofNat n :: ·) <$> characters final (.char c :: rest)

/-- A string whose opening quote has been read. -/
structure StringToken where
  text : Except Fault String
  skip : Option Fault
  rest : Option (List Char)

/-- Reads a string behind its opening quote. -/
def string (cs : List Char) : StringToken :=
  let (ps, fault, rest) := pieces cs
  { text := String.ofList <$> characters fault ps
    skip := fault
    rest := if fault.isSome then none else some rest }

/-- A string as a value. -/
def stringValue (cs : List Char) : Step :=
  let token := string cs
  match token.text with
  | .ok s => (.text s, token.rest)
  | .error f => (.broken ⟨f, token.skip, f⟩, token.rest)

/-! ### Numbers -/

/-- The digits at the front of a text, and the text behind them. -/
def digits (cs : List Char) : List Nat × List Char :=
  ((cs.takeWhile Char.isDigit).map fun c => c.toNat - '0'.toNat, cs.dropWhile Char.isDigit)

/-- At least one digit; a text that ends instead is truncated. -/
def digits1 (cs : List Char) : Except Fault (List Nat × List Char) :=
  match digits cs with
  | ([], []) => .error .truncated
  | ([], _) => .error .malformed
  | r => .ok r

/-- The digits before the point: a zero alone, or digits that start with another one. -/
def wholeDigits (cs : List Char) : Except Fault (List Nat × List Char) :=
  match digits1 cs with
  | .ok (0 :: _ :: _, _) => .error .malformed
  | r => r

/-- The point and the digits behind it. -/
def fractionDigits : List Char → Except Fault (Option (List Nat) × List Char)
  | '.' :: cs => do
    let (ds, rest) ← digits1 cs
    return (some ds, rest)
  | cs => .ok (none, cs)

/-- The digits of a power of ten, behind its sign. -/
def signedDigits : List Char → Except Fault ((Bool × List Nat) × List Char)
  | '-' :: cs => do
    let (ds, rest) ← digits1 cs
    return ((true, ds), rest)
  | '+' :: cs => do
    let (ds, rest) ← digits1 cs
    return ((false, ds), rest)
  | cs => do
    let (ds, rest) ← digits1 cs
    return ((false, ds), rest)

/-- The power of ten at the end of a number. -/
def exponentDigits : List Char → Except Fault (Option (Bool × List Nat) × List Char)
  | 'e' :: cs | 'E' :: cs => do
    let (e, rest) ← signedDigits cs
    return (some e, rest)
  | cs => .ok (none, cs)

/-- The parts of a number behind its sign. -/
def numberText (negative : Bool) (cs : List Char) : Except Fault (NumberText × List Char) := do
  let (whole, cs) ← wholeDigits cs
  let (fraction, cs) ← fractionDigits cs
  let (exponent, cs) ← exponentDigits cs
  return (⟨negative, whole, fraction.getD [], exponent, fraction.isSome⟩, cs)

/-- A number as a value, behind its sign.  A broken number is malformed when it is skipped, even
where the text ends. -/
def numberValue (negative : Bool) (cs : List Char) : Step :=
  match numberText negative cs with
  | .error f => stop f .malformed .malformed
  | .ok (t, rest) =>
    match t.value? with
    | some n => (.number n, some rest)
    | none => (.broken ⟨.malformed, none, .malformed⟩, some rest)

/-! ### Words -/

/-- The text behind a word that has to follow. -/
def afterWord : List Char → List Char → Except Fault (List Char)
  | [], cs => .ok cs
  | _ :: _, [] => .error .truncated
  | w :: ws, c :: cs => if w = c then afterWord ws cs else .error .malformed

/-- A word that stands for a value, behind its first letter. -/
def wordValue (t : Tree Fault) (word : String) (cs : List Char) : Step :=
  match afterWord word.toList cs with
  | .ok rest => (t, some rest)
  | .error f => stop f f .malformed

/-! ### Values -/

/-- The cut of a sequence or map with the same fault in every respect. -/
def cutBy (f : Fault) : Cut Fault := ⟨f, some f, f, f⟩

/-- The items of a sequence or the entries of a map, where they break off, and the text behind. -/
abbrev Many (α : Type) := List α × Option (Cut Fault) × Option (List Char)

/-- A container of the nesting depth that is left.  Where none is left the container is broken,
though it can still be skipped. -/
def nested (depth : Nat) (t : Tree Fault) : Tree Fault :=
  if depth = 0 then .broken ⟨.malformed, t.skip, .malformed⟩ else t

mutual

/-- A value.  `depth` is the number of containers that may still be nested. -/
def value : (fuel : Nat) → (depth : Nat) → List Char → Step
  | 0, _, _ => stop .malformed .malformed .malformed
  | fuel + 1, depth, cs =>
    match skipBlanks cs with
    | [] => stop .truncated .truncated .truncated
    | 'n' :: cs => wordValue .null "ull" cs
    | 't' :: cs => wordValue (.bool true) "rue" cs
    | 'f' :: cs => wordValue (.bool false) "alse" cs
    | '"' :: cs => stringValue cs
    | '-' :: cs => numberValue true cs
    | '[' :: cs =>
      let (ts, cut, rest) := items fuel (depth - 1) cs
      (nested depth (.sequence ts cut), rest)
    | '\x7b' :: cs =>
      let (es, cut, rest) := entries fuel (depth - 1) cs
      (nested depth (.map es cut), rest)
    | c :: cs =>
      if c.isDigit then numberValue false (c :: cs)
      else stop .malformed .malformed .malformed
termination_by structural fuel => fuel

/-- The items of a sequence, behind the opening bracket. -/
def items : (fuel : Nat) → (depth : Nat) → List Char → Many (Tree Fault)
  | 0, _, _ => ([], some (cutBy .malformed), none)
  | fuel + 1, depth, cs =>
    match skipBlanks cs with
    | [] => ([], some (cutBy .truncated), none)
    | ']' :: rest => ([], none, some rest)
    | cs => itemsFrom fuel depth cs
termination_by structural fuel => fuel

/-- One item of a sequence and those behind it. -/
def itemsFrom : (fuel : Nat) → (depth : Nat) → List Char → Many (Tree Fault)
  | 0, _, _ => ([], some (cutBy .malformed), none)
  | fuel + 1, depth, cs =>
    match value fuel depth cs with
    | (t, none) => ([t], none, none)
    | (t, some rest) =>
      match skipBlanks rest with
      | [] => ([t], some (cutBy .truncated), none)
      | ']' :: rest => ([t], none, some rest)
      | ',' :: rest =>
        match skipBlanks rest with
        | [] => ([t], some { cutBy .truncated with close := .malformed }, none)
        | ']' :: _ => ([t], some (cutBy .malformed), none)
        | cs =>
          let (ts, cut, rest) := itemsFrom fuel depth cs
          (t :: ts, cut, rest)
      | _ => ([t], some (cutBy .malformed), none)
termination_by structural fuel => fuel

/-- The entries of a map, behind the opening brace. -/
def entries : (fuel : Nat) → (depth : Nat) → List Char → Many (String × Tree Fault)
  | 0, _, _ => ([], some (cutBy .malformed), none)
  | fuel + 1, depth, cs =>
    match skipBlanks cs with
    | [] => ([], some (cutBy .truncated), none)
    | '\x7d' :: rest => ([], none, some rest)
    | '"' :: cs => entriesFrom fuel depth cs
    | _ => ([], some (cutBy .malformed), none)
termination_by structural fuel => fuel

/-- One entry of a map, behind the quote that opens its key, and those behind it. -/
def entriesFrom : (fuel : Nat) → (depth : Nat) → List Char → Many (String × Tree Fault)
  | 0, _, _ => ([], some (cutBy .malformed), none)
  | fuel + 1, depth, cs =>
    let key := string cs
    match key.rest with
    | none =>
      let f := match key.text with
        | .ok _ => .malformed
        | .error f => f
      ([], some { cutBy f with skip := key.skip, close := .malformed }, none)
    | some rest =>
      let (t, rest) := entryValue fuel depth rest
      let (entries, cut, rest) : Many (String × Tree Fault) :=
        match rest with
        | none => ([], none, none)
        | some rest =>
          match skipBlanks rest with
          | [] => ([], some (cutBy .truncated), none)
          | '\x7d' :: rest => ([], none, some rest)
          | ',' :: rest =>
            match skipBlanks rest with
            | [] => ([], some { cutBy .truncated with close := .malformed }, none)
            | '"' :: cs => entriesFrom fuel depth cs
            | _ => ([], some (cutBy .malformed), none)
          | _ => ([], some (cutBy .malformed), none)
      match key.text with
      | .ok k => ((k, t) :: entries, cut, rest)
      | .error f =>
        let skip := t.skip <|> Tree.skipEntries entries <|> Tree.cutSkip cut
        ([], some { cutBy f with skip, close := .malformed }, rest)
termination_by structural fuel => fuel

/-- The colon of an entry and its value. -/
def entryValue : (fuel : Nat) → (depth : Nat) → List Char → Step
  | 0, _, _ => stop .malformed .malformed .malformed
  | fuel + 1, depth, cs =>
    match skipBlanks cs with
    | [] => stop .truncated .truncated .truncated
    | ':' :: cs => value fuel depth cs
    | _ => stop .malformed .malformed .malformed
termination_by structural fuel => fuel

end

end Reader

/-- A text taken apart: the value it starts with, and the fault of text behind it. -/
structure Document where
  tree : Tree Fault
  tail : Option Fault

/-- The number of containers that may be nested in a value that is read. -/
def maxDepth : Nat := 127

/-- Takes a text apart. -/
def Document.read (text : String) : Document :=
  let cs := text.toList
  let (tree, rest) := Reader.value (4 * cs.length + 4) maxDepth cs
  ⟨tree, if ((rest.map Reader.skipBlanks).getD []).isEmpty then none else some .malformed⟩

end CardRules
