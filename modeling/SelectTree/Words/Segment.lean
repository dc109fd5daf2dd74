/-
Module: SelectTree.Words.Segment
Purpose: comma lists in a sequence of words.
Main exports: Words.splitCommas, Words.textUntilComma, Words.commaTexts
-/
import SelectTree.Words.Bracket

namespace SelectTree.Words

/-- The word separates the items of a list. -/
def isComma (word : Word) : Bool :=
  word.kind == .comma

/-- The segments between the commas outside of every bracket, for a sequence that begins at the
given depth.  There is always at least one segment. -/
def segmentsFrom : Nat → Words → List Words
  | _, [] => [[]]
  | depth, word :: words =>
      if depth = 0 && isComma word then [] :: segmentsFrom 0 words
      else
        match segmentsFrom (depthBehind depth word.kind) words with
        | [] => [[word]]
        | segment :: segments => (word :: segment) :: segments

/-- The segments between the commas outside of every bracket.  Nothing at all has no segment;
otherwise segments may be empty. -/
def splitCommas : Words → List Words
  | [] => []
  | words => segmentsFrom 0 words

/-- The text up to the first comma outside of every bracket, and the words behind that
comma. -/
def textUntilComma (words : Words) : String × Words :=
  let (front, back) := breakTop isComma words
  (front.text, back.tail)

/-- The texts of a comma list, read one after the other while words are left; an empty last
segment is not among them.  The first argument bounds their number. -/
def commaTextsUpTo : Nat → Words → List String
  | _, [] => []
  | 0, _ => []
  | count + 1, words =>
      let (text, rest) := textUntilComma words
      text :: commaTextsUpTo count rest

/-- The texts of a comma list, read one after the other while words are left. -/
def commaTexts (words : Words) : List String :=
  commaTextsUpTo words.length words

end SelectTree.Words
