import RainCheck.Proofs.ParsedTree

/-!
# Scopes

What a name means, told by the tree alone.  A `Scope` is a list of layers, the nearest one first:
* what the statements in front declare in the block, and then in each of the blocks around;
* the parameters of the function;
* the function itself, if it is nested;
* the functions of the module.

A nested function starts with a scope of its own, so it sees no local names of the functions around it.  `uses` lists
the identifiers of a tree, each with its scope.
-/

namespace RainCheck

/-- A variable without its type. -/
def Variable.bare (v : Variable) : Variable := { v with type := .empty }

/-- What is declared around an expression, the nearest layer first, each in the order of declaration. -/
abbrev Scope := List (List Variable)

namespace Scope

/-- The latest variable with a name. -/
def latest (name : String) (layer : List Variable) : Option Variable := layer.reverse.find? (·.name = name)

/-- The variable that a name means: the latest one in the nearest layer that has the name. -/
def find? (σ : Scope) (name : String) : Option Variable := σ.findSome? (latest name)

/-- Declares variables in the nearest layer. -/
def declare (σ : Scope) (vs : List Variable) : Scope := σ.modifyHead (· ++ vs)

/-- The scope of the body of a nested function. -/
def nested (functions : List Variable) (header : Header) : Scope :=
  [header.params.map (·.binding), [header.binding], functions]

/-- The scope of the body of a function of the module. -/
def toplevel (functions : List Variable) (header : Header) : Scope := [header.params.map (·.binding), functions]

@[simp] theorem declare_nil (σ : Scope) : σ.declare [] = σ := by
  cases σ <;> simp [declare]

end Scope

/-- The variables that a statement declares in its block. -/
def Expr.declared : Expr → List Variable
  | .letBinding _ binding _ _ => binding.value?.toList
  | .function _ header _ => [header.binding]
  | _ => []

theorem Expr.Fresh.declared_eq {e : Expr} (h : e.Fresh false) : e.declared = [] := by
  cases h <;> rfl

/-- An identifier in a text, with what is declared around it. -/
structure Use where
  span : Span
  name : String
  scope : Scope

/-- The variable that an identifier means. -/
def Use.meaning (u : Use) : Option Variable := u.scope.find? u.name

section

variable (functions : List Variable)

mutual

/-- The identifiers in an expression.  A binding is not declared in its own initial value. -/
def Expr.uses (σ : Scope) : Expr → List Use
  | .integer _ _ | .float _ _ | .boolean _ _ | .leaveLoop _ | .nextRound _ => []
  | .identifier info name _ => [⟨info.span, name, σ⟩]
  | .member _ base _ _ _ => Expr.uses σ base
  | .call _ callee args => Expr.uses σ callee ++ Expr.usesAll σ args
  | .builtinCall _ _ args => Expr.usesAll σ args
  | .unary _ _ operand => Expr.uses σ operand
  | .binary _ _ lhs rhs => Expr.uses σ lhs ++ Expr.uses σ rhs
  | .assignment _ target source => Expr.uses σ target ++ Expr.uses σ source
  | .structLiteral _ _ fields => Expr.usesFields σ fields
  | .letBinding _ _ _ init => Expr.uses σ init
  | .block b => Expr.usesBlock σ b
  | .ifElse _ cond thenBlock other => Expr.uses σ cond ++ Expr.usesBlock σ thenBlock ++ Expr.optionUses σ other
  | .whileLoop _ cond body => Expr.uses σ cond ++ Expr.usesBlock σ body
  | .endlessLoop _ body => Expr.usesBlock σ body
  | .leaveFunction _ result => Expr.optionUses σ result
  | .function _ header body => Expr.usesBlock (Scope.nested functions header) body

/-- The identifiers in expressions, each of which sees what those in front of it declare. -/
def Expr.usesAll (σ : Scope) : List Expr → List Use
  | [] => []
  | e :: rest => Expr.uses σ e ++ Expr.usesAll (σ.declare e.declared) rest

/-- The identifiers in the fields of a struct literal. -/
def Expr.usesFields (σ : Scope) : List (FieldInit Expr) → List Use
  | [] => []
  | ⟨_, _, value⟩ :: rest => Expr.uses σ value ++ Expr.usesFields σ rest

/-- The identifiers in a block, which has a layer of its own. -/
def Expr.usesBlock (σ : Scope) : Block Expr → List Use
  | ⟨_, _, stmts, tail⟩ =>
    Expr.usesAll ([] :: σ) stmts ++ Expr.optionUses (Scope.declare ([] :: σ) (stmts.flatMap Expr.declared)) tail

/-- The identifiers in an expression that may be left out. -/
def Expr.optionUses (σ : Scope) : Option Expr → List Use
  | some e => Expr.uses σ e
  | none => []

end

end

/-! ### Modules -/

/-- The name that a declaration declares. -/
def Decl.name : Decl → String
  | .struct d => d.name
  | .function d => d.header.name

/-- The variable that a declaration declares. -/
def Decl.variables : Decl → List Variable
  | .struct _ => []
  | .function d => [d.header.binding]

/-- The functions of a module, without those whose name is declared before; the names in `seen` are. -/
def functionsBehind (seen : List String) : List Decl → List Variable
  | [] => []
  | d :: rest =>
    if d.name ∈ seen then functionsBehind seen rest else d.variables ++ functionsBehind (d.name :: seen) rest

/-- The functions of a module that can be called by their names. -/
def moduleFunctions (decls : List Decl) : List Variable := functionsBehind [] decls

/-- The identifiers in the body of a function of the module. -/
def FunctionDecl.uses (functions : List Variable) (f : FunctionDecl) : List Use :=
  Expr.usesBlock functions (Scope.toplevel functions f.header) f.body

/-- The identifiers in a declaration. -/
def Decl.uses (functions : List Variable) : Decl → List Use
  | .struct _ => []
  | .function f => f.uses functions

/-! ### Identifiers are mentioned -/

/-- An identifier as a mention. -/
def Use.mention (u : Use) : Mention := .value u.span

section

variable (functions : List Variable)

mutual

private theorem Expr.uses_sublist (σ : Scope) (e : Expr) :
    ((e.uses functions σ).map Use.mention).Sublist e.mentions := by
  cases e with
  | integer | float | boolean | leaveLoop | nextRound => exact .refl _
  | identifier => exact .refl _
  | member _ base => exact Expr.uses_sublist σ base
  | call _ callee args =>
    simp only [Expr.uses, Expr.mentions, List.map_append]
    exact (Expr.uses_sublist σ callee).append (Expr.usesAll_sublist σ args)
  | builtinCall _ _ args => exact (Expr.usesAll_sublist σ args).cons _
  | unary _ _ operand => exact Expr.uses_sublist σ operand
  | binary _ _ lhs rhs =>
    simp only [Expr.uses, Expr.mentions, List.map_append]
    exact (Expr.uses_sublist σ lhs).append (Expr.uses_sublist σ rhs)
  | assignment _ target source =>
    simp only [Expr.uses, Expr.mentions, List.map_append]
    exact (Expr.uses_sublist σ target).append (Expr.uses_sublist σ source)
  | structLiteral _ _ fields => exact (Expr.usesFields_sublist σ fields).cons _
  | letBinding _ _ _ init => exact (Expr.uses_sublist σ init).trans (List.sublist_append_right _ _)
  | block b => exact Expr.usesBlock_sublist σ b
  | ifElse _ cond thenBlock other =>
    simp only [Expr.uses, Expr.mentions, List.map_append]
    exact ((Expr.uses_sublist σ cond).append (Expr.usesBlock_sublist σ thenBlock)).append
      (Expr.optionUses_sublist σ other)
  | whileLoop _ cond body =>
    simp only [Expr.uses, Expr.mentions, List.map_append]
    exact (Expr.uses_sublist σ cond).append (Expr.usesBlock_sublist σ body)
  | endlessLoop _ body => exact Expr.usesBlock_sublist σ body
  | leaveFunction _ result => exact Expr.optionUses_sublist σ result
  | function _ header body => exact (Expr.usesBlock_sublist _ body).trans (List.sublist_append_right _ _)

private theorem Expr.usesAll_sublist (σ : Scope) (es : List Expr) :
    ((Expr.usesAll functions σ es).map Use.mention).Sublist (Expr.mentionsAll es) := by
  cases es with
  | nil => exact .refl _
  | cons e rest =>
    simp only [Expr.usesAll, Expr.mentionsAll, List.map_append]
    exact (Expr.uses_sublist σ e).append (Expr.usesAll_sublist _ rest)

private theorem Expr.usesFields_sublist (σ : Scope) (fields : List (FieldInit Expr)) :
    ((Expr.usesFields functions σ fields).map Use.mention).Sublist (Expr.mentionsFields fields) := by
  match fields with
  | [] => exact .refl _
  | ⟨_, _, value⟩ :: rest =>
    simp only [Expr.usesFields, Expr.mentionsFields, List.map_append]
    exact (Expr.uses_sublist σ value).append (Expr.usesFields_sublist σ rest)

private theorem Expr.usesBlock_sublist (σ : Scope) (b : Block Expr) :
    ((Expr.usesBlock functions σ b).map Use.mention).Sublist (Expr.mentionsBlock b) := by
  match b with
  | ⟨_, _, stmts, tail⟩ =>
    simp only [Expr.usesBlock, Expr.mentionsBlock, List.map_append]
    exact (Expr.usesAll_sublist _ stmts).append (Expr.optionUses_sublist _ tail)

private theorem Expr.optionUses_sublist (σ : Scope) (e : Option Expr) :
    ((Expr.optionUses functions σ e).map Use.mention).Sublist (Expr.optionMentions e) := by
  match e with
  | some e => exact Expr.uses_sublist σ e
  | none => exact .refl _

end

theorem Decl.uses_sublist (d : Decl) : ((d.uses functions).map Use.mention).Sublist d.mentions := by
  cases d with
  | struct d => exact List.nil_sublist _
  | function f => exact (Expr.usesBlock_sublist functions _ f.body).trans (List.sublist_append_right _ _)

/-- The identifiers of a module begin at different places. -/
theorem Parsed.nodup_uses {decls : List Decl} (h : Parsed decls) :
    ((decls.flatMap (Decl.uses functions)).map (·.span.start)).Nodup := by
  have hsub : ((decls.flatMap (Decl.uses functions)).map Use.mention).Sublist (decls.flatMap Decl.mentions) := by
    clear h
    induction decls with
    | nil => exact .refl _
    | cons d decls ih =>
      simp only [List.flatMap_cons, List.map_append]
      exact (Decl.uses_sublist functions d).append ih
  have hnodup := (hsub.map Mention.start).nodup h.apart
  rwa [List.map_map] at hnodup

end

end RainCheck
