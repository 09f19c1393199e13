/-!
# Markup

Text shown on the terminal may hold markup tags such as `[bold]`. A text from a workflow is escaped
first: a backslash before a bracket that would open a tag makes it literal.
-/

namespace Workflow.Text

/-- A character that may follow the bracket of a tag. -/
def opensTag (c : Char) : Bool :=
  ('a' ≤ c && c ≤ 'z') || c = '#' || c = '/' || c = '@'

/--
Whether the characters after an opening bracket complete a tag: no bracket opens before one closes.
-/
def isTagTail : List Char → Bool
  | [] => false
  | c :: rest => opensTag c && (rest.dropWhile fun d => d ≠ '[' && d ≠ ']').head? = some ']'

/--
Escapes every tag. The number counts the backslashes just passed: those before a tag are doubled,
and one more is added, so that the bracket is what the last of them makes literal.
-/
def escapeTags : Nat → List Char → List Char
  | _, [] => []
  | slashes, '[' :: rest =>
    if isTagTail rest then List.replicate (slashes + 1) '\\' ++ '[' :: escapeTags 0 rest
    else '[' :: escapeTags 0 rest
  | slashes, '\\' :: rest => '\\' :: escapeTags (slashes + 1) rest
  | _, c :: rest => c :: escapeTags 0 rest

/-- A lone backslash at the end would make the tag after the text literal, so it is doubled. -/
def closeMarkup (cs : List Char) : List Char :=
  match cs.reverse with
  | '\\' :: '\\' :: _ => cs
  | '\\' :: _ => cs ++ ['\\']
  | _ => cs

/-- Makes a text literal within markup. -/
def escapeMarkup (s : String) : String :=
  String.ofList (closeMarkup (escapeTags 0 s.toList))

/--
Removes every tag. The number counts the backslashes just passed, of which two before a tag stand
for one, and a last one makes the tag literal; `inTag` says that a tag is being passed over.
-/
def dropTags : Nat → Bool → List Char → List Char
  | slashes, _, [] => List.replicate slashes '\\'
  | _, true, c :: rest => dropTags 0 (c ≠ ']') rest
  | slashes, false, c :: rest =>
    if c = '\\' then dropTags (slashes + 1) false rest
    else if c = '[' && isTagTail rest then
      List.replicate (slashes / 2) '\\'
        ++ if slashes % 2 = 1 then '[' :: dropTags 0 false rest else dropTags 0 true rest
    else List.replicate slashes '\\' ++ c :: dropTags 0 false rest

/-- A text of markup as it reads without its tags. -/
def plainMarkup (s : String) : String :=
  String.ofList (dropTags 0 false s.toList)

end Workflow.Text
