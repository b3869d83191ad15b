import Handoff.Text.Case

/-!
# Words and identifier styles

An identifier is cut into words at underscores, hyphens and spaces, which are dropped,
and between the neighbours that `Letter.splitsBefore` names: a lower-case letter and a
capital, a letter and a digit either way, and the last capital of a run before a
lower-case letter.

`snake`, `kebab`, `camel` and `pascal` join the words again in one of four styles.
-/

namespace Handoff.Text

/-- What a cluster of an identifier counts as. -/
inductive Letter where
  | separator
  | lower
  | upper
  | digit
  | other
deriving DecidableEq, Repr

/-- A character together with the marks that follow it. -/
abbrev Cluster := List Char

/-- Appends `c` as a mark of the first cluster, or as a cluster of its own. -/
def attach (c : Char) : List Cluster → List Cluster
  | (d :: ds) :: rest =>
    if inRanges markRanges d then (c :: d :: ds) :: rest else [c] :: (d :: ds) :: rest
  | rest => [c] :: rest

/-- The clusters of a text. -/
def clusters : List Char → List Cluster
  | [] => []
  | c :: cs => attach c (clusters cs)

/-- The class of a cluster. -/
def Cluster.letter (cluster : Cluster) : Letter :=
  if cluster = ['_'] ∨ cluster = ['-'] ∨ cluster = [' '] then .separator
  else if cluster.all Char.isDigit then .digit
  else
    let raised := upperChars cluster
    let lowered := lowerChars cluster
    if raised = lowered then .other
    else if cluster = raised then .upper
    else if cluster = lowered then .lower
    else .other

/-- Whether a word ends between the classes `a` and `b`, where `next` is the class after
`b`. -/
def Letter.splitsBefore (a b : Letter) (next : Option Letter) : Bool :=
  match a, b with
  | .lower, .upper | .lower, .digit | .upper, .digit | .digit, .lower | .digit, .upper => true
  | .upper, .upper => next == some .lower
  | _, _ => false

/-- Puts `cluster` in front of the first word. -/
def extendFirst (cluster : Cluster) : List (List Char) → List (List Char)
  | [] => [cluster]
  | word :: rest => (cluster ++ word) :: rest

/-- The words of a list of clusters, empty ones included; the first element is the word
under way. -/
def splitWords : List Cluster → List (List Char)
  | [] => [[]]
  | c :: rest =>
    let words := splitWords rest
    if c.letter = .separator then [] :: words
    else
      match rest with
      | [] => extendFirst c words
      | d :: more =>
        if c.letter.splitsBefore d.letter (more.head?.map Cluster.letter) then c :: words
        else extendFirst c words

/-- The words of a text. -/
def words (cs : List Char) : List (List Char) :=
  (splitWords (clusters cs)).filter (!·.isEmpty)

/-- A word with a capital first and lower-case letters after it. -/
def capitalized : List Char → List Char
  | [] => []
  | c :: cs => upperChar c ++ lowerChars cs

/-- Lower-case words with `separator` between them. -/
def joinLower (separator : Char) (cs : List Char) : List Char :=
  List.intercalate [separator] ((words cs).map lowerChars)

/-- `some_words_like_this`. -/
def snake (s : String) : String :=
  String.ofList (joinLower '_' s.toList)

/-- `some-words-like-this`. -/
def kebab (s : String) : String :=
  String.ofList (joinLower '-' s.toList)

/-- `SomeWordsLikeThis`. -/
def pascal (s : String) : String :=
  String.ofList ((words s.toList).flatMap capitalized)

/-- `someWordsLikeThis`. -/
def camel (s : String) : String :=
  match words s.toList with
  | [] => ""
  | first :: rest => String.ofList (lowerChars first ++ rest.flatMap capitalized)

end Handoff.Text
