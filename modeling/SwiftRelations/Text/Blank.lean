/-!
# White space

The Unicode property `White_Space`, and what follows from it: the text without its outer white
space, and the list of its words. A text is handled as its list of characters, so that every
operation here is a recursion on a list.
-/

namespace SwiftRelations.Text

/-- The characters with the Unicode property `White_Space`. -/
def isBlank (c : Char) : Bool :=
  let n := c.toNat
  (9 ≤ n && n ≤ 13) || n == 0x20 || n == 0x85 || n == 0xa0 || n == 0x1680 ||
    (0x2000 ≤ n && n ≤ 0x200a) || n == 0x2028 || n == 0x2029 || n == 0x202f || n == 0x205f ||
    n == 0x3000

/-- A list without the longest run at its end that satisfies `p`. -/
def dropEndWhile (p : Char → Bool) (cs : List Char) : List Char :=
  (cs.reverse.dropWhile p).reverse

/-- A text without the white space before it. -/
def trimStart (s : String) : String :=
  String.ofList (s.toList.dropWhile isBlank)

/-- A text without the white space around it. -/
def trim (s : String) : String :=
  String.ofList (dropEndWhile isBlank (s.toList.dropWhile isBlank))

/-- A word put in front of a list of words, unless it is empty. -/
def consWord (word : List Char) (words : List (List Char)) : List (List Char) :=
  match word with
  | [] => words
  | _ => word :: words

/-- The characters before the first white space, and the words after it. -/
def splitWord : List Char → List Char × List (List Char)
  | [] => ([], [])
  | c :: cs =>
    let (word, words) := splitWord cs
    if isBlank c then ([], consWord word words) else (c :: word, words)

/-- The maximal runs of characters that are not white space, in order. -/
def words (cs : List Char) : List (List Char) :=
  let (word, words) := splitWord cs
  consWord word words

/-- A text whose words are parted by single spaces and nothing else is blank. -/
def squeeze (s : String) : String :=
  " ".intercalate ((words s.toList).map String.ofList)

/-- Whether `s` starts with `start`. -/
def startsWith (s start : String) : Bool :=
  start.toList.isPrefixOf s.toList

/-- Whether `s` ends with `ending`. -/
def endsWith (s ending : String) : Bool :=
  ending.toList.isSuffixOf s.toList

/-- What follows `start` in `s`, if `s` starts with it. -/
def dropStart? (s start : String) : Option String :=
  if startsWith s start then some (String.ofList (s.toList.drop start.length)) else none

/-- `cs` without the copies of `start` that stand one after another at its beginning. The fuel
bounds the number of copies. -/
def dropCopies (start : List Char) : Nat → List Char → List Char
  | 0, cs => cs
  | n + 1, cs => if start.isPrefixOf cs then dropCopies start n (cs.drop start.length) else cs

end SwiftRelations.Text
