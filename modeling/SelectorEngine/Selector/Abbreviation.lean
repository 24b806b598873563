import SelectorEngine.Selector.Token

/-! Pseudo-classes that stand for a selector list. Each of them means what `:is()` of its list means. -/
namespace SelectorEngine.Selector

def anyOf (groups : SelectorList) : Token := pseudoOf "is" groups

def noneOf (groups : SelectorList) : Token := pseudoOf "not" groups

def anyTag (names : List String) : Token := anyOf (names.map fun name => [tag name])

def ofType (name : String) : SelectorList := [[attributeEquals "type" name]]

/-- `:is(:is(button, input, select, textarea, optgroup, option)[disabled],
optgroup[disabled] > option,
fieldset[disabled]:not(fieldset[disabled] legend:first-of-type *))` -/
def disabled : SelectorList := [[anyOf [
  [anyTag ["button", "input", "select", "textarea", "optgroup", "option"],
    attributePresent "disabled"],
  [tag "optgroup", attributePresent "disabled", child, tag "option"],
  [tag "fieldset", attributePresent "disabled",
    noneOf [[tag "fieldset", attributePresent "disabled", descendant, tag "legend",
      pseudo "first-of-type", descendant, universal]]]]]]

/-- `:is(:is(input[type=radio], input[type=checkbox])[checked], option:selected)` -/
def checked : SelectorList := [[anyOf [
  [anyOf [
      [tag "input", attributeEquals "type" "radio"],
      [tag "input", attributeEquals "type" "checkbox"]],
    attributePresent "checked"],
  [tag "option", pseudo "selected"]]]]

/-- `option:is([selected],
select:not([multiple]):not(:has(> option[selected])) > :first-of-type)` -/
def selected : SelectorList := [[tag "option", anyOf [
  [attributePresent "selected"],
  [tag "select",
    noneOf [[attributePresent "multiple"]],
    noneOf [[pseudoOf "has" [[child, tag "option", attributePresent "selected"]]]],
    child, pseudo "first-of-type"]]]]

def abbreviations : List (String × SelectorList) := [
  ("any-link", [[anyTag ["a", "area", "link"], attributePresent "href"]]),
  ("link", [[pseudo "any-link", noneOf [[pseudo "visited"]]]]),
  ("disabled", disabled),
  ("enabled", [[noneOf [[pseudo "disabled"]]]]),
  ("checked", checked),
  ("required", [[anyTag ["input", "select", "textarea"], attributePresent "required"]]),
  ("optional", [[anyTag ["input", "select", "textarea"], noneOf [[attributePresent "required"]]]]),
  ("selected", selected),
  ("checkbox", ofType "checkbox"),
  ("file", ofType "file"),
  ("password", ofType "password"),
  ("radio", ofType "radio"),
  ("reset", ofType "reset"),
  ("image", ofType "image"),
  ("submit", ofType "submit"),
  ("parent", [[noneOf [[pseudo "empty"]]]]),
  ("header", [[anyTag ["h1", "h2", "h3", "h4", "h5", "h6"]]]),
  ("button", [[anyOf [[tag "button"], [tag "input", attributeEquals "type" "button"]]]]),
  ("input", [[anyTag ["input", "textarea", "select", "button"]]]),
  ("text", [[tag "input", anyOf [
    [noneOf [[attributeWith "type" .not ""]]],
    [attributeEquals "type" "text"]]]]),
  ("even", [[pseudoWith "nth-child" "even"]]),
  ("odd", [[pseudoWith "nth-child" "odd"]])]

end SelectorEngine.Selector
