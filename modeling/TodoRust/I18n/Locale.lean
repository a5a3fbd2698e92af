import TodoRust.Rust.Str

/-!
# Locales and time zones

The identifiers the i18n crate passes around. Parsing a language identifier and
looking a zone up by name belong to other crates, so both are parameters.
-/

namespace TodoRust.I18n
open Rust

/-- The locales the app ships translations for. -/
def supported : List String := ["en", "es", "fr", "de"]

/-- `unic_langid::LanguageIdentifier` -/
structure LanguageIdentifier where
  language : String
  script : Option String
  region : Option String
  variants : List String
  deriving DecidableEq

/-- `Display`: the subtags joined by hyphens. -/
def LanguageIdentifier.toString (id : LanguageIdentifier) : String :=
  "-".intercalate (id.language :: (id.script.toList ++ id.region.toList ++ id.variants))

structure Tz where
  name : String
  deriving DecidableEq

def utc : Tz := ⟨"UTC"⟩

/-- `parse_tz`, over the lookup by name. -/
def parseTz (findByName : String → List Tz) (name : String) : Option Tz :=
  let trimmed := String.ofList ((trim name).toList.dropWhile (· == '+'))
  if trimmed = "" then none else (findByName trimmed).head?

end TodoRust.I18n
