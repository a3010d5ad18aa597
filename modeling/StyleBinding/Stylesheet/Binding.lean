import StyleBinding.Document.Basic
import StyleBinding.Stylesheet.GeneratedName
import StyleBinding.Stylesheet.Settings

/-!
# Bound stylesheets

An import that loads a stylesheet and binds nothing gets a name, so that code
can reach the stylesheet; a path imported twice in this way is bound once.
Imports that the author bound are reported and left alone. What the module
reaches its styles through, its accessor, is the one generated binding or a
call that merges all of them in order.
-/

namespace StyleBinding

/-- An import of a stylesheet and the name it is reached by. -/
structure SheetImport where
  path : Text
  name : Text
  byAuthor : Bool
deriving DecidableEq

/-! ## Accessors -/

/-- An accessor without bindings. -/
inductive AccessorError where
  | noBinding
deriving DecidableEq

/-- The wording of an accessor error. -/
def AccessorError.message : AccessorError → Text
  | noBinding => "StylesheetAccessor needs at least one binding"

/-- The bindings through which a module reaches its styles, at least one. -/
structure Accessor where
  bindings : List Text
  nonempty : bindings ≠ []
deriving DecidableEq

namespace Accessor

/-- The accessor over bindings. -/
def ofBindings (bindings : List Text) : Except AccessorError Accessor :=
  if h : bindings ≠ [] then .ok ⟨bindings, h⟩ else .error .noBinding

/-- Whether there is more than one binding, so that they have to be merged. -/
def needsMerge (a : Accessor) : Bool := 1 < a.bindings.length

/-- The expression of an accessor. -/
def expression (a : Accessor) : Text :=
  if a.needsMerge then Vocabulary.mergeName ++ "(" ++ Text.join ", " a.bindings ++ ")"
  else a.bindings.head a.nonempty

end Accessor

/-! ## Binding imports -/

/-- Imports after binding, and the stylesheets among them. -/
structure BoundImports where
  imports : List ImportDeclaration := []
  stylesheets : List SheetImport := []
deriving DecidableEq

namespace BoundImports

/-- The imports with one more in front that is left as it is. -/
def keep (b : BoundImports) (d : ImportDeclaration) : BoundImports :=
  { b with imports := d :: b.imports }

/-- The imports with a reported stylesheet in front. -/
def report (b : BoundImports) (s : SheetImport) : BoundImports :=
  { b with stylesheets := s :: b.stylesheets }

/-- Binds the stylesheets among imports. `taken` holds the names in use and `bound`
the paths that have been bound. -/
def ofImports (settings : Settings) (taken bound : List Text) :
    List ImportDeclaration → BoundImports
  | [] => {}
  | d :: rest =>
    let path := d.clause.source
    if d.ofTypes || !settings.isStylesheet path then (ofImports settings taken bound rest).keep d
    else if !d.bindsNothing then
      ((ofImports settings taken bound rest).keep d).report
        ⟨path, d.accessName.getD [], true⟩
    else if bound.contains path then (ofImports settings taken bound rest).keep d
    else
      let name := freeName (generatedName path) taken
      ((ofImports settings (name :: taken) (path :: bound) rest).keep
        { d with binding := some name }).report ⟨path, name, false⟩

/-- The generated bindings, in order. -/
def bindings (b : BoundImports) : List Text :=
  (b.stylesheets.filter (!·.byAuthor)).map (·.name)

/-- The accessor over the generated bindings, if there are any. -/
def accessor? (b : BoundImports) : Option Accessor := (Accessor.ofBindings b.bindings).toOption

end BoundImports

/-- The imports of a document with their stylesheets bound. -/
def Document.boundImports (settings : Settings) (d : Document) : BoundImports :=
  .ofImports settings d.importedNames [] d.imports

/-- A document with its stylesheet imports bound. -/
def Document.bindImports (settings : Settings) (d : Document) : Document :=
  { d with imports := (d.boundImports settings).imports }

end StyleBinding
