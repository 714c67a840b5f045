import ModelPatch.Build
import ModelPatch.Symbols.Table

/-!
# Settings

What is neither in the asset nor in the manifest is set through environment variables. A variable
that is missing, blank or meaningless leaves the default in place.

## Main definitions

* `Settings`: the settings;
* `Settings.ofEnvironment`: the settings that environment variables make.
-/

namespace ModelPatch

/-- The settings of a build. -/
structure Settings where
  /-- The name of the placeholder. -/
  placeholder : String := SymbolTable.defaultPlaceholder
  /-- The least level of notices that are shown. -/
  level : Level := .warning
  /-- What replaces the ending of the name of an asset in the default name of the output. -/
  outputSuffix : String := ".patched.zobj"
  deriving DecidableEq, Repr

namespace Settings

/-- The environment variable that names the placeholder. -/
def placeholderKey : String := "PLAYAS_PLACEHOLDER_SYMBOL"

/-- The environment variable that sets the level. -/
def levelKey : String := "PLAYAS_LOG_LEVEL"

/-- The environment variable that sets the ending of default outputs. -/
def suffixKey : String := "PLAYAS_OUTPUT_SUFFIX"

/-- The environment variables that matter. -/
def keys : List String :=
  [placeholderKey, levelKey, suffixKey]

/-- The value of an environment variable without the blanks around it, if anything is left. -/
def value? (environment : String → Option String) (key : String) : Option (List Char) :=
  (environment key).bind fun text =>
    let stripped := Text.strip text.toList
    if stripped.isEmpty then none else some stripped

/-- The capital form of a letter in the name of a level. The dotless `ı` is the only letter
beyond ASCII whose capital form, `I`, occurs in such a name. -/
def capital (c : Char) : Char :=
  if c = '\u0131' then 'I' else c.toUpper

/-- The level with a name, in letters of either case. -/
def level? (name : List Char) : Option Level :=
  [Level.debug, .info, .warning, .error].find? fun l => l.text.toList = name.map capital

/-- The settings that environment variables make. -/
def ofEnvironment (environment : String → Option String) : Settings :=
  let defaults : Settings := {}
  let text := fun key => (value? environment key).map String.ofList
  { placeholder := (text placeholderKey).getD defaults.placeholder
    level := ((value? environment levelKey).bind level?).getD defaults.level
    outputSuffix := (text suffixKey).getD defaults.outputSuffix }

end Settings

end ModelPatch
