import StyleBinding.Text.Basic

/-!
# What the pass looks for and puts in

The attribute names that the pass reads and writes, the identifiers that it
introduces into a module, and the code of its two helper functions.
-/

namespace StyleBinding.Vocabulary

/-- The attribute that holds class names. -/
def classAttribute : Text := "className"

/-- The attribute that holds the inline style. -/
def styleAttribute : Text := "style"

/-- The attribute that keeps class names for debugging. -/
def debugAttribute : Text := "__class"

/-- The identifier of the resolved stylesheet. -/
def styleSheetName : Text := "_styleSheet"

/-- The identifier of the helper that merges stylesheets. -/
def mergeName : Text := "_mergeStyles"

/-- The identifier of the helper that resolves class values. -/
def getStyleName : Text := "_getStyle"

/-- What the name of every generated binding ends with. -/
def bindingEnding : Text := "StyleSheet"

/-- Lines of code as one text. -/
def code (lines : List String) : Text := Text.join "\n" (lines.map Text.ofString)

/-- The helper that merges stylesheets. -/
def mergeHelper : Text :=
  code ["function _mergeStyles() \x7b",
    "  var merged = \x7b\x7d;",
    "",
    "  for (var index = 0; index < arguments.length; index++) \x7b",
    "    var sheet = arguments[index];",
    "",
    "    for (var key in sheet) \x7b",
    "      if (Object.prototype.hasOwnProperty.call(sheet, key)) \x7b",
    "        merged[key] = sheet[key];",
    "      \x7d",
    "    \x7d",
    "  \x7d",
    "",
    "  return merged;",
    "\x7d"]

/-- The helper that resolves class values. -/
def getStyleHelper : Text :=
  code ["function _getStyle(value) \x7b",
    "  if (typeof value === \"string\") \x7b",
    "    return value.split(/\\s+/).reduce(function (style, name) \x7b",
    "      return name ? Object.assign(style, _styleSheet[name]) : style;",
    "    \x7d, \x7b\x7d);",
    "  \x7d",
    "",
    "  if (Array.isArray(value)) \x7b",
    "    return value.reduce(function (style, item) \x7b",
    "      return Object.assign(style, _getStyle(item));",
    "    \x7d, \x7b\x7d);",
    "  \x7d",
    "",
    "  if (value !== null && typeof value === \"object\" && " ++
      "Object.getPrototypeOf(value) === Object.prototype) \x7b",
    "    return Object.keys(value).reduce(function (style, name) \x7b",
    "      return value[name] ? Object.assign(style, _getStyle(name)) : style;",
    "    \x7d, \x7b\x7d);",
    "  \x7d",
    "",
    "  return value;",
    "\x7d"]

/-- The statement that declares the resolved stylesheet. -/
def declaration (expression : Text) : Text :=
  "var " ++ styleSheetName ++ " = " ++ expression ++ ";"

end StyleBinding.Vocabulary
