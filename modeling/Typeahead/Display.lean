import Typeahead.Display.Markup

namespace Typeahead.Display

/-! What a terminal without colors shows of a marked-up text. -/

/-- A marked-up text as it is printed. -/
def printed (text : String) : Except MarkupError String := do
  return .ofList ((← renderMarkup text) ++ ['\n'])

end Typeahead.Display
