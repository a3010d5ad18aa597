import StyleBinding.Import.Clause

/-!
# Import declarations

An import declaration of a module: where it stands, what it binds, and the
default name it has been given if it bound nothing itself.
-/

namespace StyleBinding

/-- A top-level import declaration. `gap` lies between the keyword and the path,
and `path` is the literal that names the module, quotes included. -/
structure ImportDeclaration where
  span : Span
  gap : Span
  path : Span
  clause : ImportClause
  ofTypes : Bool := false
  binding : Option Text := none
deriving DecidableEq

namespace ImportDeclaration

/-- The name the declaration has been given; an empty one does not count. -/
def givenName (d : ImportDeclaration) : Option Text := d.binding.filter (!·.isEmpty)

/-- Whether the author binds nothing, so that the module is loaded for its
effects alone. -/
def bindsNothing (d : ImportDeclaration) : Bool :=
  d.clause.defaultName.isNone && d.clause.namespaceName.isNone && d.clause.named.isEmpty

/-- The name through which code reaches the module. -/
def accessName (d : ImportDeclaration) : Option Text :=
  d.givenName <|> d.clause.defaultName <|> d.clause.namespaceName <|>
    d.clause.named.head?.map (·.bound)

/-- All names that the declaration binds. -/
def boundNames (d : ImportDeclaration) : List Text :=
  d.clause.defaultName.toList ++ d.clause.namespaceName.toList ++ d.givenName.toList ++
    d.clause.named.map (·.bound)

end ImportDeclaration

/-! ## Declarations of types -/

/-- Whether a declaration imports types alone: behind the keyword stand `type`
or `typeof` and then a binding. A clause that goes on with `from` binds the name
`type` instead. -/
def startsTypeImport (t : Text) : Bool :=
  let afterBlanks (u : Text) : Option Text :=
    let n := Text.countWhile (·.isBlank) u
    if n = 0 then none else some (u.drop n)
  let isBinding (u : Text) : Bool :=
    let word := u.takeWhile (·.isWord)
    word != ("from" : Text) &&
      match u with
      | [] => false
      | c :: _ => c.isWord || c.is '$' || c.is '{' || c.is '*'
  match afterBlanks (t.drop 6) with
  | none => false
  | some u =>
    Text.startsWith u "type" &&
      let v := u.drop 4
      let w := if Text.startsWith v "of" then v.drop 2 else v
      match afterBlanks w with
      | none => false
      | some x => isBinding x

end StyleBinding
