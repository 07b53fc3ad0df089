import DirectiveLowering.Text.Lower

/-!
# Standard element names

The element names of HTML. A name that is one of them, in whatever case, is written in lower case, so
that it is never taken for a component.

Results:
* `isHtmlName_iff`: the check asks for the lower-case form of the name.
-/

namespace DirectiveLowering.Naming

/-- Element names of HTML (`HTML_TAGS`), in alphabetical order. -/
def htmlNames : List String := [
  "a", "abbr", "address", "area", "article", "aside", "audio",
  "b", "base", "bdi", "bdo", "blockquote", "body", "br", "button",
  "canvas", "caption", "cite", "code", "col", "colgroup",
  "data", "datalist", "dd", "del", "details", "dfn", "dialog", "div", "dl", "dt",
  "em", "embed",
  "fieldset", "figcaption", "figure", "footer", "form",
  "h1", "h2", "h3", "h4", "h5", "h6", "head", "header", "hgroup", "hr", "html",
  "i", "iframe", "img", "input", "ins",
  "kbd",
  "label", "legend", "li", "link",
  "main", "map", "mark", "math", "menu", "meta", "meter",
  "nav", "noscript",
  "object", "ol", "optgroup", "option", "output",
  "p", "picture", "pre", "progress",
  "q",
  "rp", "rt", "ruby",
  "s", "samp", "script", "search", "section", "select", "slot", "small",
  "source", "span", "strong", "style", "sub", "summary", "sup", "svg",
  "table", "tbody", "td", "template", "textarea", "tfoot", "th", "thead",
  "time", "title", "tr", "track",
  "u", "ul",
  "var", "video",
  "wbr"]

/-- The name in lower case. -/
def lowerName (name : String) : String :=
  String.ofList (Text.lower name.toList)

/-- Whether the name is an element name of HTML, in whatever case (`htmlTag_is`). -/
def isHtmlName (name : String) : Bool :=
  htmlNames.contains (lowerName name)

theorem isHtmlName_iff {name : String} :
    isHtmlName name = true ↔ lowerName name ∈ htmlNames :=
  List.contains_iff_mem

end DirectiveLowering.Naming
