/-
Free text as it goes into a query.

Users type anything; the engine's query language gives many characters a meaning. So text is
normalized before it is sent: everything but letters, numbers and white space is deleted, white space
at the ends is removed, and each run of it inside becomes one space. The normalized text is then
matched exactly or as the beginning of a longer one.

`QueryText.normalize` is `gleaner_search::query::normalize_text`, and `QueryText.expression` is
`gleaner_search::query::query_string_text`.
-/
import HarvestSearch.Text.Trim

set_option autoImplicit false

namespace HarvestSearch.QueryText

/-! ## Normalization -/

/-- The text without the characters that are neither letters nor numbers nor white space. -/
def keepWords (cs : List Char) : List Char :=
  cs.filter fun c => Text.isWordChar c || Text.isWhiteSpace c

/-- The text with every run of white space made one space. -/
def collapseBlanks : List Char → List Char
  | [] => []
  | c :: cs =>
    if Text.isWhiteSpace c then
      match collapseBlanks cs with
      | ' ' :: rest => ' ' :: rest
      | rest => ' ' :: rest
    else c :: collapseBlanks cs

/-- The words of the text, with one space between them. -/
def normalizeList (cs : List Char) : List Char := collapseBlanks (Text.trimList (keepWords cs))

/-- The words of the text, with one space between them. -/
def normalize (text : String) : String := String.ofList (normalizeList text.toList)

/-! ## The expression -/

/-- The expression that matches every document. -/
def matchAll : String := "*"

/-- The expression for a text: its words, exactly or as the beginning of a longer text. Text without
words matches every document. -/
def expression (text : String) : String :=
  let words := normalize text
  if words.isEmpty then matchAll else "(" ++ words ++ " OR " ++ words ++ "*)"

end HarvestSearch.QueryText
