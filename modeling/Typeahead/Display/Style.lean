import Typeahead.Text.Blank
import Typeahead.Text.Integer
import Typeahead.Text.Lowercase

namespace Typeahead.Display

/-!
Styles of marked-up text.  A style is described by words: attributes, each perhaps after `not`, a
color, a background color after `on`, and a link.  Two descriptions of one style have the same
normal form.
-/

/-- Why a text describes no style. -/
inductive StyleError where
  | unknown (word : String)
  /-- A color is given by components, one of which is left out or too long to be read. -/
  | unreadableColor (color : String)
deriving DecidableEq, Repr

/-- The colors that have names. -/
def colorNames : List String := Text.words "
  default
  black red green yellow blue magenta cyan white bright_black bright_red bright_green
  bright_yellow bright_blue bright_magenta bright_cyan bright_white grey0 gray0 navy_blue
  dark_blue blue3 blue1 dark_green deep_sky_blue4 dodger_blue3 dodger_blue2 green4 spring_green4
  turquoise4 deep_sky_blue3 dodger_blue1 green3 spring_green3 dark_cyan light_sea_green
  deep_sky_blue2 deep_sky_blue1 spring_green2 cyan3 dark_turquoise turquoise2 green1 spring_green1
  medium_spring_green cyan2 cyan1 dark_red deep_pink4 purple4 purple3 blue_violet orange4 grey37
  gray37 medium_purple4 slate_blue3 royal_blue1 chartreuse4 dark_sea_green4 pale_turquoise4
  steel_blue steel_blue3 cornflower_blue chartreuse3 cadet_blue sky_blue3 steel_blue1 pale_green3
  sea_green3 aquamarine3 medium_turquoise chartreuse2 sea_green2 sea_green1 aquamarine1
  dark_slate_gray2 dark_magenta dark_violet purple light_pink4 plum4 medium_purple3 slate_blue1
  yellow4 wheat4 grey53 gray53 light_slate_grey light_slate_gray medium_purple light_slate_blue
  dark_olive_green3 dark_sea_green light_sky_blue3 sky_blue2 dark_sea_green3 dark_slate_gray3
  sky_blue1 chartreuse1 light_green pale_green1 dark_slate_gray1 red3 medium_violet_red magenta3
  dark_orange3 indian_red hot_pink3 medium_orchid3 medium_orchid medium_purple2 dark_goldenrod
  light_salmon3 rosy_brown grey63 gray63 medium_purple1 gold3 dark_khaki navajo_white3 grey69
  gray69 light_steel_blue3 light_steel_blue yellow3 dark_sea_green2 light_cyan3 light_sky_blue1
  green_yellow dark_olive_green2 dark_sea_green1 pale_turquoise1 deep_pink3 magenta2 hot_pink2
  orchid medium_orchid1 orange3 light_pink3 pink3 plum3 violet light_goldenrod3 tan misty_rose3
  thistle3 plum2 khaki3 light_goldenrod2 light_yellow3 grey84 gray84 light_steel_blue1 yellow2
  dark_olive_green1 honeydew2 light_cyan1 red1 deep_pink2 deep_pink1 magenta1 orange_red1
  indian_red1 hot_pink dark_orange salmon1 light_coral pale_violet_red1 orchid2 orchid1 orange1
  sandy_brown light_salmon1 light_pink1 pink1 plum1 gold1 navajo_white1 misty_rose1 thistle1
  yellow1 light_goldenrod1 khaki1 wheat1 cornsilk1 grey100 gray100 grey3 gray3 grey7 gray7 grey11
  gray11 grey15 gray15 grey19 gray19 grey23 gray23 grey27 gray27 grey30 gray30 grey35 gray35
  grey39 gray39 grey42 gray42 grey46 gray46 grey50 gray50 grey54 gray54 grey58 gray58 grey62
  gray62 grey66 gray66 grey70 gray70 grey74 gray74 grey78 gray78 grey82 gray82 grey85 gray85
  grey89 gray89 grey93 gray93
  "

/-- What stands between an opening and a closing text. -/
def between? (opening closing : String) (cs : List Char) : Option (List Char) := do
  closing.toList.isSuffixOf? (← opening.toList.isPrefixOf? cs)

def isHexDigit (c : Char) : Bool := c.isDigit || ('a' ≤ c && c ≤ 'f')

/-- Whether digits are neither none nor too many. -/
def isReadable (digits : List Char) : Bool :=
  !digits.isEmpty && digits.length ≤ Text.maxNumberLength

/-- Whether decimal digits give a number of eight bits. -/
def isByte (digits : List Char) : Bool := Text.decimalValue digits ≤ 255

/-- Whether characters between parentheses are the number of a color. -/
def isColorNumber (digits : List Char) : Bool :=
  !digits.isEmpty && digits.length ≤ 3 && digits.all Char.isDigit && isByte digits

/-- The name of a color: a known one, or a notation of its number or of its components. -/
def colorName (word : String) : Except StyleError String :=
  let name := Text.lowercase word
  let cs := name.toList
  let known :=
    colorNames.contains name ||
      (between? "#" "" cs).any (fun digits => digits.length == 6 && digits.all isHexDigit) ||
      (between? "color(" ")" cs).any isColorNumber
  match known, between? "rgb(" ")" cs with
  | true, _ => .ok name
  | false, none => .error (.unknown word)
  | false, some body =>
      let components := body.splitOn ','
      if !body.all (fun c => Text.isDecimalDigit c || c == ',') || components.length != 3 then
        .error (.unknown word)
      else if !components.all isReadable then .error (.unreadableColor word)
      else if components.all isByte then .ok name
      else .error (.unknown word)

/-- The attributes in the order of the normal form. -/
def attributes : List String := [
    "bold", "dim", "italic", "underline", "blink", "blink2", "reverse", "conceal", "strike",
    "underline2", "frame", "encircle", "overline"]

def attributeAbbreviations : List (String × String) := [
    ("d", "dim"), ("b", "bold"), ("i", "italic"), ("u", "underline"), ("r", "reverse"),
    ("c", "conceal"), ("s", "strike"), ("uu", "underline2"), ("o", "overline")]

def attribute? (word : String) : Option String :=
  if attributes.contains word then some word
  else (attributeAbbreviations.find? (·.1 == word)).map (·.2)

structure Style where
  /-- The attributes that are switched on or off, the latest first. -/
  switches : List (String × Bool) := []
  color : Option String := none
  background : Option String := none
  link : Option String := none
deriving DecidableEq, Repr

namespace Style

/-- Changes a style as the words say. -/
def changedBy : List String → Style → Except StyleError Style
  | [], style => .ok style
  | word :: rest, style =>
      let keyword := Text.lowercase word
      if keyword = "on" then
        match rest with
        | [] => .error (.unknown word)
        | color :: rest => do changedBy rest { style with background := some (← colorName color) }
      else if keyword = "not" then
        match rest with
        | [] => .error (.unknown word)
        | name :: rest =>
            match attribute? name with
            | none => .error (.unknown name)
            | some name => changedBy rest { style with switches := (name, false) :: style.switches }
      else if keyword = "link" then
        match rest with
        | [] => .error (.unknown word)
        | link :: rest => changedBy rest { style with link := some link }
      else
        match attribute? keyword with
        | some name => changedBy rest { style with switches := (name, true) :: style.switches }
        | none => do changedBy rest { style with color := some (← colorName word) }

def normalForm (style : Style) : String :=
  let switches := attributes.filterMap fun name =>
    (style.switches.find? (·.1 == name)).map fun (_, on) => if on then name else "not " ++ name
  let words := switches ++ style.color.toList ++
    (style.background.map ("on " ++ ·)).toList ++ (style.link.map ("link " ++ ·)).toList
  if words.isEmpty then "none" else " ".intercalate words

end Style

/-- The normal form of a description.  That of a text that describes no style is its lowercase. -/
def normalStyle (text : String) : Except StyleError String :=
  let trimmed := Text.trim text
  if trimmed = "none" then .ok trimmed
  else
    match Style.changedBy (Text.words text) {} with
    | .ok style => .ok style.normalForm
    | .error (.unknown _) => .ok (Text.lowercase trimmed)
    | .error (.unreadableColor color) => .error (.unreadableColor color)

end Typeahead.Display
