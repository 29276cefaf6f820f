/-!
Names in kebab case. A name is a list of words over `a`–`z` and `0`–`9` joined by single hyphens;
one is derived from a description by taking the words of its lower-cased beginning. -/

namespace Lifecycle.Text

def WordChar (c : Char) : Prop := ('a' ≤ c ∧ c ≤ 'z') ∨ ('0' ≤ c ∧ c ≤ '9')

instance (c : Char) : Decidable (WordChar c) := by
  unfold WordChar
  infer_instance

/-- Lower case as far as words can tell: besides `A`–`Z` only the Kelvin sign and the dotted
capital I have a lower-case form with a letter of a word in it. -/
def lowerCase (c : Char) : List Char :=
  if 'A' ≤ c ∧ c ≤ 'Z' then [Char.ofNat (c.toNat + 32)]
  else if c = '\u212a' then ['k']
  else if c = '\u0130' then ['i', '\u0307']
  else [c]

/-- Every run of other characters becomes one hyphen. -/
def hyphenated : List Char → List Char
  | [] => []
  | c :: rest =>
    if WordChar c then c :: hyphenated rest
    else match hyphenated rest with
      | '-' :: tail => '-' :: tail
      | tail => '-' :: tail

def trimHyphens (text : List Char) : List Char :=
  ((text.dropWhile (· = '-')).reverse.dropWhile (· = '-')).reverse

/-- How much of a description goes into a name. -/
def slugLimit : Nat := 50

def slug (description : String) : String :=
  String.ofList (trimHyphens (hyphenated ((description.toList.take slugLimit).flatMap lowerCase)))

/-- A text without the newline it may end with. -/
def withoutFinalNewline (text : List Char) : List Char :=
  match text.reverse with
  | '\n' :: rest => rest.reverse
  | _ => text

/-- Words joined by single hyphens, accepted character by character. -/
def kebabFrom (afterWordChar : Bool) : List Char → Bool
  | [] => afterWordChar
  | c :: rest =>
    if WordChar c then kebabFrom true rest
    else c = '-' && afterWordChar && kebabFrom false rest

/-- A project name; one newline at the end is tolerated. -/
def isName (text : String) : Bool :=
  kebabFrom false (withoutFinalNewline text.toList)

/-- A type name: lower-case letters, digits and underscores; one newline at the end is tolerated. -/
def isTypeName (text : String) : Bool :=
  let chars := withoutFinalNewline text.toList
  !chars.isEmpty && chars.all fun c => WordChar c || c = '_'

end Lifecycle.Text
