import Typeahead.Display.EmojiName
import Typeahead.Text.Blank
import Typeahead.Text.Lowercase

namespace Typeahead.Display

/-! Emoji that are written by name, between two colons. -/

/-- Takes words in pairs of a name and an emoji. -/
def pairs : List String → List (String × List Char)
  | name :: emoji :: rest => (name, emoji.toList) :: pairs rest
  | _ => []

def emojiTable : List (String × List Char) :=
  emojiNameTables.flatMap fun table => pairs (Text.words table)

def tonedEmojiTable : List (String × List Char) := pairs (Text.words tonedEmojiNames)

/-- What follows a name for an emoji in a skin tone, and the tone. -/
def skinTones : List (String × Char) := [
    ("_light_skin_tone", '🏻'), ("_medium-light_skin_tone", '🏼'), ("_medium_skin_tone", '🏽'),
    ("_medium-dark_skin_tone", '🏾'), ("_dark_skin_tone", '🏿')]

/-- An emoji in a skin tone.  The tone stands in place of a mark for how its first character is
presented. -/
def withSkinTone (tone : Char) : List Char → List Char
  | c :: '\uFE0F' :: rest => c :: tone :: rest
  | c :: rest => c :: tone :: rest
  | [] => []

/-- The emoji of a name. -/
def emoji? (name : String) : Option (List Char) :=
  match (emojiTable ++ tonedEmojiTable).find? (·.1 == name) with
  | some (_, emoji) => some emoji
  | none => skinTones.findSome? fun (suffix, tone) => do
      let base ← suffix.toList.isSuffixOf? name.toList
      let (_, emoji) ← tonedEmojiTable.find? (·.1 == String.ofList base)
      return withSkinTone tone emoji

/-- What may follow a name to have the emoji shown in colour or as text, and the mark for it. -/
def presentations : List (String × Char) := [("-emoji", '\uFE0F'), ("-text", '\uFE0E')]

/-- What stands for the characters between two colons. -/
def emojiBetween? (body : List Char) : Option (List Char) :=
  let presented := presentations.findSome? fun (suffix, mark) =>
    (suffix.toList.isSuffixOf? body).map fun name => (name, [mark])
  let (name, mark) := presented.getD (body, [])
  (emoji? (Text.lowercase (.ofList name))).map (· ++ mark)

/-- Puts emoji for names at most `fuel` times. -/
def replaceEmojiUpTo : (fuel : Nat) → List Char → List Char
  | 0, cs => cs
  | _, [] => []
  | fuel + 1, c :: rest =>
      let body := rest.takeWhile fun d => d != ':' && !Text.isBlank d
      match c == ':', rest.drop body.length with
      | true, ':' :: after =>
          (emojiBetween? body).getD (':' :: body ++ [':']) ++ replaceEmojiUpTo fuel after
      | _, _ => c :: replaceEmojiUpTo fuel rest

/-- A text with emoji in place of their names.  What stands between two colons and names no emoji
stays, colons included. -/
def replaceEmoji (cs : List Char) : List Char := replaceEmojiUpTo cs.length cs

end Typeahead.Display
