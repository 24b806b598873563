import SelectorEngine.Json

/-! The switches of a compilation, and their JSON form: an object in which absent switches keep their
defaults. -/
namespace SelectorEngine

structure Flags where
  /-- Names are case-sensitive, and no attribute value is compared without case by itself. -/
  xmlMode : Bool := false
  /-- Lower-case tag names also in XML. -/
  lowerCaseTags : Bool := false
  /-- Lower-case attribute names also in XML. -/
  lowerCaseAttributeNames : Bool := false
  quirksMode : Bool := false
  /-- Selectors may start with a combinator. -/
  relativeSelector : Bool := true
  /-- Results are remembered between tests. -/
  cacheResults : Bool := true
deriving DecidableEq, Repr

namespace Flags

def foldsTags (flags : Flags) : Bool := !flags.xmlMode || flags.lowerCaseTags

def foldsAttributeNames (flags : Flags) : Bool := !flags.xmlMode || flags.lowerCaseAttributeNames

def toJson (flags : Flags) : Json := .object [
  ("xmlMode", .bool flags.xmlMode),
  ("lowerCaseTags", .bool flags.lowerCaseTags),
  ("lowerCaseAttributeNames", .bool flags.lowerCaseAttributeNames),
  ("quirksMode", .bool flags.quirksMode),
  ("relativeSelector", .bool flags.relativeSelector),
  ("cacheResults", .bool flags.cacheResults)]

def switch? (fields : List (String × Json)) (name : String) (default : Bool) : Option Bool :=
  match fields.lookup name with
  | none => some default
  | some value => value.bool?

def ofJson? : Json → Option Flags
  | .object fields => do
    return {
      xmlMode := ← switch? fields "xmlMode" false
      lowerCaseTags := ← switch? fields "lowerCaseTags" false
      lowerCaseAttributeNames := ← switch? fields "lowerCaseAttributeNames" false
      quirksMode := ← switch? fields "quirksMode" false
      relativeSelector := ← switch? fields "relativeSelector" true
      cacheResults := ← switch? fields "cacheResults" true }
  | _ => none

theorem ofJson_toJson (flags : Flags) : ofJson? flags.toJson = some flags := rfl

end Flags
end SelectorEngine
