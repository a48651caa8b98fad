import TraceStore.Decimal.Numeral
import TraceStore.Text.Alphanumeric
import TraceStore.Text.Blank

/-!
# Patterns of field values

A directive may ask for a field whose value fits a pattern, a regular expression.  Such a directive
only concerns spans, so a pattern is never run against a value here; but one that cannot be used
makes its directive unusable, and that is what this module decides.

A pattern is read from left to right.  Of what was read only that is kept which still matters: how
deep it nests, which names its groups have, and whether it looks for edges of words.  Marks such as
`(?i)` change how the rest of the group around them is read.  Classes that rest on the properties of
characters, and letters in either case, are known for ASCII alone; so are edges of words.

A field ends at the first closing brace, so counted repetitions and everything else that needs one
cannot be complete.  `Pattern.fault?` is the result.
-/

namespace TraceStore

/-- Why a pattern cannot be used. -/
inductive PatternFault where
  /-- It breaks the rules of patterns, or asks for what is known for ASCII alone. -/
  | malformed
  /-- It looks for edges of words in any script. -/
  | wordEdge
  deriving Repr, DecidableEq

/-- The text of a fault. -/
def PatternFault.message : PatternFault → String
  | .malformed => "error building NFA"
  | .wordEdge =>
      "unsupported regex feature for DFAs: cannot build DFAs for regexes with Unicode word " ++
        "boundaries; switch to ASCII word boundaries, or heuristically enable Unicode word " ++
        "boundaries or use a different regex engine"

namespace Pattern

/-! ## Modes -/

/-- How a part of a pattern is to be read. -/
structure Mode where
  /-- Letters fit in either case. -/
  caseless : Bool := false
  /-- A pattern fits characters of any script; otherwise it fits bytes. -/
  universal : Bool := true
  /-- Blanks and comments do not count. -/
  spaced : Bool := false
  deriving Repr, DecidableEq

namespace Mode

/-- Sets what a letter in a mark stands for.  The other letters have no part in what is usable. -/
def set (mode : Mode) (letter : Char) (value : Bool) : Mode :=
  if letter = 'i' then { mode with caseless := value }
  else if letter = 'u' then { mode with universal := value }
  else if letter = 'x' then { mode with spaced := value }
  else mode

/-- What is left behind blanks and comments. -/
def skipGaps : (rounds : Nat) → List Char → List Char
  | 0, text => text
  | rounds + 1, text =>
      match text.dropWhile Text.isBlank with
      | '#' :: rest => skipGaps rounds ((rest.dropWhile (· ≠ '\n')).drop 1)
      | rest => rest

/-- What is left behind blanks and comments, if they do not count. -/
def skip (mode : Mode) (text : List Char) : List Char :=
  if mode.spaced then skipGaps (text.length + 1) text else text

/-- The character that comes next but for blanks.  A single hash mark counts as one of them here,
and where nothing else follows the blanks themselves count. -/
def glance (mode : Mode) (text : List Char) : Option Char :=
  if mode.spaced then
    let rest := match text.dropWhile Text.isBlank with
      | '#' :: rest => rest.dropWhile Text.isBlank
      | rest => rest
    rest.head?.or text.head?
  else text.head?

/-- Whether a character may stand for itself.  `coded` says that it is given as a byte. -/
def admits (mode : Mode) (coded : Bool) (character : Char) : Bool :=
  if mode.universal then !mode.caseless else character.toNat < 0x80 || !coded

/-- Whether a character may stand for itself in a class. -/
def admitsMember (mode : Mode) (character : Char) : Bool :=
  if mode.universal then !mode.caseless else character.toNat < 0x80

/-- Whether a class of letters, digits or blanks may be asked for. -/
def admitsKind (mode : Mode) (negated : Bool) : Bool := !mode.universal && !negated

/-- Whether a class of ASCII characters may be asked for by name. -/
def admitsNamed (mode : Mode) (negated : Bool) : Bool :=
  if mode.universal then !mode.caseless else !negated

end Mode

/-! ## Single parts -/

/-- A part of a pattern without parts of its own. -/
inductive Part where
  /-- A character; `coded` says that it is given as a byte. -/
  | character (value : Char) (coded : Bool)
  /-- A class of letters, digits or blanks. -/
  | kind (negated : Bool)
  /-- A place in the text. -/
  | place (ofWord : Bool)
  deriving Repr, DecidableEq

/-- The number in a fixed count of digits to base sixteen. -/
def readNumber (mode : Mode) : (count value : Nat) → List Char → Option (Nat × List Char)
  | 0, value, text => some (value, text)
  | count + 1, value, text =>
      match mode.skip text with
      | [] => none
      | digit :: rest =>
          match Numeral.hexDigit? digit with
          | some digit => readNumber mode count (value * 16 + digit) rest
          | none => none

/-- A character given by its number. -/
def readCoded (mode : Mode) (count : Nat) (text : List Char) : Option (Part × List Char) :=
  match readNumber mode count 0 text with
  | some (value, rest) =>
      if h : value.isValidChar then some (.character (Char.ofNatAux value h) (count = 2), rest)
      else none
  | none => none

/-- The characters that letters behind a backslash stand for. -/
def namedCharacters : List (Char × Char) :=
  [('a', '\x07'), ('f', '\x0c'), ('t', '\t'), ('n', '\n'), ('r', '\r'), ('v', '\x0b')]

/-- Whether a character behind a backslash stands for itself. -/
def isEscapable (character : Char) : Bool :=
  character.toNat < 0x80 && !character.isAlphanum && character ≠ '<' && character ≠ '>'

/-- What stands behind a backslash. -/
def readEscape (mode : Mode) : List Char → Option (Part × List Char)
  | [] => none
  | letter :: rest =>
      if letter = 'x' then readCoded mode 2 rest
      else if letter = 'u' then readCoded mode 4 rest
      else if letter = 'U' then readCoded mode 8 rest
      else if letter = 'd' || letter = 's' || letter = 'w' then some (.kind false, rest)
      else if letter = 'D' || letter = 'S' || letter = 'W' then some (.kind true, rest)
      else if letter = 'b' || letter = 'B' || letter = '<' || letter = '>' then
        some (.place true, rest)
      else if letter = 'A' || letter = 'z' then some (.place false, rest)
      else if isEscapable letter then some (.character letter false, rest)
      else
        (namedCharacters.find? (·.1 = letter)).map fun (_, character) =>
          (.character character false, rest)

/-! ## Classes -/

/-- How deep parts nest that stand side by side. -/
def depthOfRow : List Nat → Nat
  | [] => 0
  | [depth] => depth
  | depths => 1 + depths.foldl max 0

/-- How deep the members of a class nest, given how deep those in front of the last operator do. -/
def depthOfClass (before : Option Nat) (members : List Nat) : Nat :=
  match before with
  | some depth => 1 + max depth (depthOfRow members)
  | none => depthOfRow members

/-- The names of classes of ASCII characters. -/
def classNames : List String :=
  ["alnum", "alpha", "ascii", "blank", "cntrl", "digit", "graph", "lower", "print", "punct",
    "space", "upper", "word", "xdigit"]

/-- A class of ASCII characters by name, behind its opening bracket: whether it is negated. -/
def readNamed : List Char → Option (Bool × List Char)
  | ':' :: text =>
      let negated := text.head? = some '^'
      let text := if negated then text.drop 1 else text
      let name := String.ofList (text.takeWhile (· ≠ ':'))
      match text.dropWhile (· ≠ ':') with
      | ':' :: ']' :: rest => if classNames.contains name then some (negated, rest) else none
      | _ => none
  | _ => none

/-- One part of a class. -/
def readClassPart (mode : Mode) : List Char → Option (Part × List Char)
  | [] => none
  | '\\' :: rest => readEscape mode rest
  | character :: rest => some (.character character false, rest)

/-- Whether a part may be a member of a class. -/
def isMember (mode : Mode) : Part → Bool
  | .character value _ => mode.admitsMember value
  | .kind negated => mode.admitsKind negated
  | .place _ => false

/-- What is left behind a member of a class: one part, or a range of characters. -/
def skipMember (mode : Mode) (text : List Char) : Option (List Char) :=
  match readClassPart mode text with
  | none => none
  | some (first, rest) =>
      match mode.skip rest with
      | [] => none
      | '-' :: rest =>
          if mode.glance rest = some ']' || mode.glance rest = some '-' then
            if isMember mode first then some ('-' :: rest) else none
          else
            match first, readClassPart mode (mode.skip rest) with
            | .character least _, some (.character greatest _, rest) =>
                if least ≤ greatest && mode.admitsMember least && mode.admitsMember greatest then
                  some rest
                else none
            | _, _ => none
      | rest => if isMember mode first then some rest else none

/-- The hyphens at the beginning of a class, which stand for themselves, and what follows them. -/
def readHyphens (mode : Mode) : (rounds : Nat) → List Char → Nat × List Char
  | 0, text => (0, text)
  | rounds + 1, text =>
      match text with
      | '-' :: rest =>
          let (count, rest) := readHyphens mode rounds (mode.skip rest)
          (count + 1, rest)
      | text => (0, text)

mutual

/-- A class behind its opening bracket: how deep it nests. -/
def readClass (mode : Mode) : (rounds : Nat) → List Char → Option (Nat × List Char)
  | 0, _ => none
  | rounds + 1, text =>
      let text := mode.skip text
      let negated := text.head? = some '^'
      let text := if negated then mode.skip (text.drop 1) else text
      let (hyphens, text) := readHyphens mode (text.length + 1) text
      let closed := hyphens = 0 && text.head? = some ']'
      let plain := if closed then 1 else hyphens
      let text := if closed then mode.skip (text.drop 1) else text
      if (negated && !mode.universal) || (0 < plain && !mode.admitsMember '-') then none
      else readMembers mode rounds none (List.replicate plain 0) text

/-- The members of a class up to its closing bracket. -/
def readMembers (mode : Mode) : (rounds : Nat) → (before : Option Nat) → (members : List Nat) →
    List Char → Option (Nat × List Char)
  | 0, _, _, _ => none
  | rounds + 1, before, members, text =>
      match mode.skip text with
      | ']' :: rest => some (1 + depthOfClass before members, rest)
      | '&' :: '&' :: rest | '-' :: '-' :: rest | '~' :: '~' :: rest =>
          readMembers mode rounds (some (depthOfClass before members)) [] rest
      | '[' :: rest =>
          match readNamed rest with
          | some (negated, rest) =>
              if mode.admitsNamed negated then readMembers mode rounds before (0 :: members) rest
              else none
          | none =>
              match readClass mode rounds rest with
              | some (depth, rest) => readMembers mode rounds before (depth :: members) rest
              | none => none
      | text =>
          match skipMember mode text with
          | some rest => readMembers mode rounds before (0 :: members) rest
          | none => none

end

/-! ## Groups -/

/-- What an opening parenthesis begins. -/
inductive Opening where
  /-- A mark, which is complete. -/
  | mark (mode : Mode)
  | group (mode : Mode) (name : Option String)
  deriving Repr, DecidableEq

/-- The letters of a mark behind its question mark, up to the end of the mark or the beginning of
a group for which they hold.  `seen` are the letters so far, the last one first. -/
def readLetters (mode : Mode) (seen : List Char) : List Char → Option (Opening × List Char)
  | [] => none
  | letter :: rest =>
      if letter = ':' || letter = ')' then
        if seen.head? = some '-' then none
        else if letter = ':' then some (.group mode none, rest)
        else if seen.isEmpty then none
        else some (.mark mode, rest)
      else if seen.contains letter then none
      else if letter = '-' then readLetters mode (letter :: seen) rest
      else if "imsUuRx".contains letter then
        readLetters (mode.set letter (!seen.contains '-')) (letter :: seen) rest
      else none

/-- Whether a text may be the name of a group. -/
def isGroupName : List Char → Bool
  | [] => false
  | first :: others =>
      (first = '_' || Text.isAlphabetic first) &&
        others.all fun other =>
          other = '_' || other = '.' || other = '[' || other = ']' || Text.isAlphanumeric other

/-- The name of a group, up to its closing bracket. -/
def readGroupName (mode : Mode) (text : List Char) : Option (Opening × List Char) :=
  let name := text.takeWhile (· ≠ '>')
  match text.dropWhile (· ≠ '>') with
  | '>' :: rest =>
      if isGroupName name then some (.group mode (some (String.ofList name)), rest) else none
  | _ => none

/-- What follows an opening parenthesis.  Groups that look ahead or behind are not known. -/
def readOpening (mode : Mode) (text : List Char) : Option (Opening × List Char) :=
  match mode.skip text with
  | '?' :: '=' :: _ | '?' :: '!' :: _ | '?' :: '<' :: '=' :: _ | '?' :: '<' :: '!' :: _ => none
  | '?' :: 'P' :: '<' :: rest | '?' :: '<' :: rest => readGroupName mode rest
  | '?' :: rest => readLetters mode [] rest
  | rest => some (.group mode none, rest)

/-! ## Patterns -/

/-- What was found in a pattern so far. -/
structure Found where
  names : List String := []
  wordEdge : Bool := false
  deriving Repr, DecidableEq

/-- Takes note of the name of a group; no two groups have the same one. -/
def Found.named (found : Found) : Option String → Option Found
  | none => some found
  | some name =>
      if found.names.contains name then none else some { found with names := name :: found.names }

/-- What is found with a part that stands by itself, if it may stand there. -/
def Found.adding (found : Found) (mode : Mode) : Part → Option Found
  | .character value coded => if mode.admits coded value then some found else none
  | .kind negated => if mode.admitsKind negated then some found else none
  | .place ofWord => some { found with wordEdge := found.wordEdge || (ofWord && mode.universal) }

/-- A part that stands by itself.  The point fits any character, so it needs a pattern that fits
characters. -/
def readPart (mode : Mode) : List Char → Option (Part × List Char)
  | [] => none
  | '\\' :: rest => readEscape mode rest
  | '^' :: rest | '$' :: rest => some (.place false, rest)
  | '.' :: rest => if mode.universal then some (.place false, rest) else none
  | character :: rest => some (.character character false, rest)

/-- Whether a character repeats what stands in front of it. -/
def isRepeater (character : Char) : Bool :=
  character = '?' || character = '*' || character = '+'

/-- How deep alternatives nest, each a row of parts. -/
def depthOfAlternatives (others : List Nat) (row : List (Option Nat)) : Nat :=
  depthOfRow (depthOfRow (row.map (·.getD 0)) :: others)

/-- A pattern or a group up to its end: how deep it nests, and what was found.  Of the parts of a
row the depths are kept, the last one first; marks have none, since they cannot be repeated. -/
def readRow : (rounds : Nat) → (grouped : Bool) → Mode → Found → (others : List Nat) →
    (row : List (Option Nat)) → List Char → Option (Nat × Found × List Char)
  | 0, _, _, _, _, _, _ => none
  | rounds + 1, grouped, mode, found, others, row, text =>
      match mode.skip text with
      | [] => if grouped then none else some (depthOfAlternatives others row, found, [])
      | ')' :: rest =>
          if grouped then some (depthOfAlternatives others row, found, rest) else none
      | '|' :: rest =>
          readRow rounds grouped mode found (depthOfRow (row.map (·.getD 0)) :: others) [] rest
      | '(' :: rest =>
          match readOpening mode rest with
          | none => none
          | some (.mark mode, rest) =>
              readRow rounds grouped mode found others (none :: row) rest
          | some (.group inner name, rest) =>
              match found.named name with
              | none => none
              | some found =>
                  match readRow rounds true inner found [] [] rest with
                  | none => none
                  | some (depth, found, rest) =>
                      readRow rounds grouped mode found others (some (depth + 1) :: row) rest
      | '[' :: rest =>
          match readClass mode (2 * rest.length + 2) rest with
          | none => none
          | some (depth, rest) => readRow rounds grouped mode found others (some depth :: row) rest
      | '\x7b' :: _ => none
      | character :: rest =>
          if isRepeater character then
            match row with
            | some depth :: row =>
                readRow rounds grouped mode found others (some (depth + 1) :: row)
                  (if rest.head? = some '?' then rest.drop 1 else rest)
            | _ => none
          else
            match readPart mode (character :: rest) with
            | none => none
            | some (part, rest) =>
                match found.adding mode part with
                | none => none
                | some found => readRow rounds grouped mode found others (some 0 :: row) rest

/-- How deep a pattern may nest. -/
def nestingLimit : Nat := 250

/-- Why a text cannot be used as a pattern, if it cannot. -/
def fault? (text : List Char) : Option PatternFault :=
  match readRow (text.length + 1) false {} {} [] [] text with
  | none => some .malformed
  | some (depth, found, _) =>
      if nestingLimit < depth then some .malformed
      else if found.wordEdge then some .wordEdge
      else none

end Pattern

end TraceStore
