import RainCheck.Check.Rules
import RainCheck.Proofs.Keeping

/-!
# Annotated trees

What a checked tree says about the program (`Expr.Annotated`), read against the store it was checked with.
* Every node has a type that can be used, and a known value is of that type (`Info.Typed`).
* Names have variables, members have positions, calls and literals fit the types they name, and every result fits the
  function it stands in.

An annotation stays right when the store grows (`Expr.Annotated.grow`).
-/

namespace RainCheck

namespace Store

variable {s s' : Store} {t u : TypeId}

/-- A value of one type can stand where another type is expected. -/
def Assignable (s : Store) (t u : TypeId) : Prop := s.types.assignable t u = .ok true

/-- The type behind a reference; other types stand for themselves. -/
def Loads (s : Store) (t u : TypeId) : Prop := s.types.load t = .ok u

/-- A type has a field at a position: it is a resolved struct, or a reference to one. -/
def HasField (s : Store) (t : TypeId) (index : Nat) (u : TypeId) : Prop :=
  ∃ w decl fields name, s.Loads t w ∧ s.typeAt? w = some (.struct decl (.resolved fields)) ∧
    fields[index]? = some (name, u)

/-- A part of a checked tree can stand where a type is expected. -/
def Fits (s : Store) (i : Info) (u : TypeId) : Prop := ∃ t, i.type = some t ∧ s.Assignable t u

theorem get_of_entry {e : TypeEntry} (he : s.typeAt? t = some e) : s.types.get t = .ok e := itemAt_eq_ok_iff.mpr he

theorem entry_of_get {e : TypeEntry} (he : s.types.get t = .ok e) : s.typeAt? t = some e := itemAt_eq_ok_iff.mp he

/-- Whether a type is a reference, and to what, does not change. -/
private theorem GrowsTo.inner {e : TypeEntry} (hg : s.GrowsTo s') (he : s.types.get t = .ok e) :
    ∃ e', s'.types.get t = .ok e' ∧ e'.inner? = e.inner? := by
  obtain ⟨e', he', hbecomes⟩ := hg.entries t e (entry_of_get he)
  exact ⟨e', get_of_entry he', by cases hbecomes <;> rfl⟩

theorem GrowsTo.loads (hg : s.GrowsTo s') (h : s.Loads t u) : s'.Loads t u := by
  unfold Loads Types.load at h ⊢
  cases hget : s.types.get t with
  | error f => simp [hget] at h
  | ok e =>
    obtain ⟨e', he', hinner⟩ := hg.inner hget
    simp only [hget, ok_bind] at h
    simp only [he', ok_bind, hinner]
    exact h

theorem GrowsTo.hasField {index : Nat} (hg : s.GrowsTo s') (h : s.HasField t index u) : s'.HasField t index u := by
  obtain ⟨w, decl, fields, name, hload, hstruct, hfield⟩ := h
  exact ⟨w, decl, fields, name, hg.loads hload, hg.resolved hstruct, hfield⟩

theorem GrowsTo.isReference {b : Bool} (hg : s.GrowsTo s') (h : s.types.isReference t = .ok b) :
    s'.types.isReference t = .ok b := by
  unfold Types.isReference at h ⊢
  cases hget : s.types.get t with
  | error f => simp [hget] at h
  | ok e =>
    obtain ⟨e', he', hinner⟩ := hg.inner hget
    simp only [hget, ok_bind] at h
    simp only [he', ok_bind, hinner]
    exact h

theorem GrowsTo.assignable_eq {b : Bool} (hg : s.GrowsTo s') (h : s.types.assignable t u = .ok b) :
    s'.types.assignable t u = .ok b := by
  unfold Types.assignable at h ⊢
  split at h
  · rename_i heq
    rw [if_pos heq]
    exact h
  · rename_i hne
    rw [if_neg hne]
    cases hget : s.types.get t with
    | error f => simp [hget] at h
    | ok e =>
      obtain ⟨e', he', hinner⟩ := hg.inner hget
      simp only [hget, ok_bind] at h
      simp only [he', ok_bind, hinner]
      exact h

private theorem GrowsTo.assignable (hg : s.GrowsTo s') (h : s.Assignable t u) : s'.Assignable t u := hg.assignable_eq h

theorem GrowsTo.fits {i : Info} (hg : s.GrowsTo s') (h : s.Fits i u) : s'.Fits i u := by
  obtain ⟨t, ht, hassignable⟩ := h
  exact ⟨t, ht, hg.assignable hassignable⟩

/-- The type that a variable has does not change. -/
theorem GrowsTo.typeOf {v : Variable} (hg : s.GrowsTo s') (h : (s.typeOf v).value? = some t) :
    (s'.typeOf v).value? = some t := by
  unfold Store.typeOf at h ⊢
  split
  · rename_i hkind
    rw [if_pos hkind] at h
    cases hrecord : (s.function v.span).variableType with
    | none => simp [hrecord, Holder.value?] at h
    | some holder =>
      obtain ⟨holder', hrecord', hvalue⟩ := (hg.functions v.span).variableType holder hrecord
      rw [hrecord] at h
      rw [hrecord']
      exact hvalue t h
  · rename_i hkind
    rwa [if_neg hkind] at h

end Store

/-- What is known about a checked node: its type can be used, and a known value is of that type. -/
structure Info.Typed (s : Store) (i : Info) (t : TypeId) : Prop where
  type : i.type = some t
  settled : s.Settled t
  reference : s.types.isReference t = .ok i.reference
  value : ∀ v, i.value = some v → v.type = t

theorem Info.Typed.grow {s s' : Store} {i : Info} {t : TypeId} (h : i.Typed s t) (hg : s.GrowsTo s') : i.Typed s' t :=
  ⟨h.type, hg.settled h.settled, hg.isReference h.reference, h.value⟩

/-- A variable is found under its name in a frame. -/
def Store.Finds (s : Store) (fr : FrameId) (v : Variable) : Prop :=
  ∃ f, s.frame? fr = some f ∧ f.findVariable v.name = some v

theorem Store.GrowsTo.finds {s s' : Store} {fr : FrameId} {v : Variable} (hg : s.GrowsTo s') (h : s.Finds fr v) :
    s'.Finds fr v := by
  obtain ⟨f, hf, hfind⟩ := h
  obtain ⟨f', hf', hgrows⟩ := hg.frames fr f hf
  exact ⟨f', hf', hgrows.values.lookup_eq_some hfind⟩

/--
A tree that is checked in a frame, inside of a function that returns the type `returns`.
-/
inductive Expr.Annotated (s : Store) : (returns : Option TypeId) → FrameId → Expr → Prop where
  | integer {ret : Option TypeId} {fr : FrameId} {i : Info} {n : Int32} (hi : i.Typed s TypeId.i32) :
      Annotated s ret fr (.integer i n)
  | float {ret : Option TypeId} {fr : FrameId} {i : Info} {x : Float} (hi : i.Typed s TypeId.f64) :
      Annotated s ret fr (.float i x)
  | boolean {ret : Option TypeId} {fr : FrameId} {i : Info} {b : Bool} (hi : i.Typed s TypeId.bool) :
      Annotated s ret fr (.boolean i b)
  /-- An identifier has a variable of its own type. -/
  | identifier {ret : Option TypeId} {fr : FrameId} {i : Info} {name : String} {v : Variable} {t : TypeId}
      (hi : i.Typed s t) (hv : (s.typeOf v).value? = some t) : Annotated s ret fr (.identifier i name (some v))
  /-- A member access gives a field of a resolved struct, or of one behind a reference. -/
  | member {ret : Option TypeId} {fr : FrameId} {i : Info} {base : Expr} {name : String} {span : Span} {index : Nat}
      {t u w : TypeId} {decl : StructDecl} {fields : List (String × TypeId)} (hbase : Annotated s ret fr base)
      (hu : base.type? = some u) (hload : s.Loads u w) (hstruct : s.typeAt? w = some (.struct decl (.resolved fields)))
      (hindex : fields.findIdx? (·.1 = name) = some index) (hfield : fields[index]? = some (name, t))
      (hi : i.Typed s t) : Annotated s ret fr (.member i base name span index)
  /-- A call has one argument for each parameter, and gives the result of the function. -/
  | call {ret : Option TypeId} {fr : FrameId} {i : Info} {callee : Expr} {args : List Expr} {f returns : TypeId}
      {params : List TypeId} (hcallee : Annotated s ret fr callee) (hargs : ∀ e ∈ args, Annotated s ret fr e)
      (hf : callee.type? = some f) (hfunction : s.typeAt? f = some (.function params returns))
      (hfits : List.Forall₂ (fun e p => s.Fits (Expr.info e) p) args params) (hi : i.Typed s returns) :
      Annotated s ret fr (.call i callee args)
  /-- The arguments of a builtin have one type, which it takes. -/
  | builtinCall {ret : Option TypeId} {fr : FrameId} {i : Info} {name : String} {args : List Expr} {b : Builtin}
      {u : TypeId} (hb : Builtin.ofName? name = some b) (hargs : ∀ e ∈ args, Annotated s ret fr e)
      (harity : args.length = b.family.arity) (hu : ∀ e ∈ args, ∃ t, e.type? = some t ∧ s.Loads t u)
      (htakes : b.family.takes u = true) (hi : i.Typed s (b.family.result u)) :
      Annotated s ret fr (.builtinCall i name args)
  /-- A negation has the type of its operand. -/
  | negation {ret : Option TypeId} {fr : FrameId} {i : Info} {op : UnaryOp} {operand : Expr} {t u : TypeId}
      (hop : op ≠ .address) (hoperand : Annotated s ret fr operand) (hu : operand.type? = some u) (hload : s.Loads u t)
      (hi : i.Typed s t) : Annotated s ret fr (.unary i op operand)
  /-- A reference is taken to a location. -/
  | address {ret : Option TypeId} {fr : FrameId} {i : Info} {operand : Expr} {t u : TypeId}
      (hoperand : Annotated s ret fr operand) (hlocation : operand.hasLocation = .ok true)
      (hu : operand.type? = some u) (ht : s.typeAt? t = some (.reference u)) (hi : i.Typed s t) :
      Annotated s ret fr (.unary i .address operand)
  /-- The operands of an operator have one type. -/
  | binary {ret : Option TypeId} {fr : FrameId} {i : Info} {op : BinaryOp} {lhs rhs : Expr} {t u v : TypeId}
      (hlhs : Annotated s ret fr lhs) (hrhs : Annotated s ret fr rhs) (hu : lhs.type? = some u)
      (hv : rhs.type? = some v)
      (hleft : s.Loads u t) (hright : s.Loads v t) (htakes : (Action.operandTypes op).2 t = true)
      (hi : i.Typed s (if op.isComparison then TypeId.bool else t)) : Annotated s ret fr (.binary i op lhs rhs)
  /-- An assignment goes to a location, through it if it is a reference. -/
  | assignment {ret : Option TypeId} {fr : FrameId} {i : Info} {target source : Expr} {u w : TypeId}
      (htarget : Annotated s ret fr target) (hsource : Annotated s ret fr source)
      (hlocation : target.hasLocation = .ok true) (hu : target.type? = some u) (hload : s.Loads u w)
      (hfits : s.Fits source.info w) (hi : i.Typed s TypeId.void) : Annotated s ret fr (.assignment i target source)
  /-- A literal gives each field of its struct once. -/
  | structLiteral {ret : Option TypeId} {fr : FrameId} {i : Info} {name : String} {inits : List (FieldInit Expr)}
      {t : TypeId} {decl : StructDecl} {fields : List (String × TypeId)}
      (hinits : ∀ f ∈ inits, Annotated s ret fr f.value)
        (hstruct : s.typeAt? t = some (.struct decl (.resolved fields)))
      (honce : (inits.map (·.name)).Perm (fields.map (·.1)))
      (hfits : ∀ f ∈ inits, ∃ u, (f.name, u) ∈ fields ∧ s.Fits f.value.info u) (hi : i.Typed s t) :
      Annotated s ret fr (.structLiteral i name inits)
  /-- The variable of a binding has a type, belongs to the frame of the block and is found there. -/
  | letBinding {ret : Option TypeId} {fr : FrameId} {i : Info} {v : Variable} {declared : Option TypeExpr} {init : Expr}
      {t : TypeId} (hinit : Annotated s ret fr init) (hv : v.type.value? = some t) (ht : s.Settled t)
      (hfits : s.Fits init.info t) (hfound : s.Finds fr v) (hi : i.Typed s TypeId.void) :
      Annotated s ret fr (.letBinding i (.borrowed v) declared init)
  /-- The names of a block have a frame inside the one around it. -/
  | block {ret : Option TypeId} {fr inner : FrameId} {i : Info} {stmts : List Expr} {tail : Option Expr} {t : TypeId}
      {f : Frame} (hframe : s.frame? inner = some f) (houter : f.outer.head? = some fr)
      (hstmts : ∀ e ∈ stmts, Annotated s ret inner e) (htail : ∀ e ∈ tail, Annotated s ret inner e)
      (hresult : ∀ e ∈ tail, e.type? = some t) (hvoid : tail = none → t = TypeId.void ∨ t = TypeId.never)
      (hi : i.Typed s t) : Annotated s ret fr (.block ⟨i, some inner, stmts, tail⟩)
  /-- A condition is a truth value, and both branches of a conditional fit its type. -/
  | ifElse {ret : Option TypeId} {fr : FrameId} {i : Info} {cond : Expr} {thenBlock : Block Expr} {other : Option Expr}
      {t : TypeId} (hcond : Annotated s ret fr cond) (hbool : s.Fits cond.info TypeId.bool)
      (hthen : Annotated s ret fr (.block thenBlock)) (hother : ∀ e ∈ other, Annotated s ret fr e)
      (hfirst : s.Fits thenBlock.info t) (hsecond : ∀ e ∈ other, s.Fits e.info t)
      (hvoid : other = none → t = TypeId.void) (hi : i.Typed s t) :
      Annotated s ret fr (.ifElse i cond thenBlock other)
  | whileLoop {ret : Option TypeId} {fr : FrameId} {i : Info} {cond : Expr} {body : Block Expr}
      (hcond : Annotated s ret fr cond) (hbool : s.Fits cond.info TypeId.bool)
      (hbody : Annotated s ret fr (.block body))
      (hvoid : s.Fits body.info TypeId.void) (hi : i.Typed s TypeId.void) : Annotated s ret fr (.whileLoop i cond body)
  | endlessLoop {ret : Option TypeId} {fr : FrameId} {i : Info} {body : Block Expr} {t : TypeId}
      (hbody : Annotated s ret fr (.block body)) (hvoid : s.Fits body.info TypeId.void)
      (ht : t = TypeId.void ∨ t = TypeId.never) (hi : i.Typed s t) : Annotated s ret fr (.endlessLoop i body)
  | leaveLoop {ret : Option TypeId} {fr : FrameId} {i : Info} (hi : i.Typed s TypeId.never) :
      Annotated s ret fr (.leaveLoop i)
  | nextRound {ret : Option TypeId} {fr : FrameId} {i : Info} (hi : i.Typed s TypeId.never) :
      Annotated s ret fr (.nextRound i)
  /-- What is returned fits the result of the function around. -/
  | leaveFunction {fr : FrameId} {i : Info} {result : Option Expr} {r : TypeId}
      (hresult : ∀ e ∈ result, Annotated s (some r) fr e) (hfits : ∀ e ∈ result, s.Fits e.info r)
      (hvoid : result = none → r = TypeId.void) (hi : i.Typed s TypeId.never) :
      Annotated s (some r) fr (.leaveFunction i result)
  /-- The body of a function fits what it returns, and its parameters have their types. -/
  | function {ret : Option TypeId} {fr inner : FrameId} {i : Info} {header : Header} {body : Block Expr}
      {sig returns : TypeId} {params : List TypeId} (hsig : s.typeAt? sig = some (.function params returns))
      (hparams : List.Forall₂ (fun p t => p.binding.type = .borrowed t) header.params params)
      (hbody : Annotated s (some returns) inner (.block body)) (hfits : s.Fits body.info returns) (hi : i.Typed s sig) :
      Annotated s ret fr (.function i header body)

namespace Expr.Annotated

variable {s s' : Store} {ret : Option TypeId} {fr : FrameId} {e : Expr}

/-- Every node has a type that can be used. -/
theorem typed (h : e.Annotated s ret fr) : ∃ t, e.info.Typed s t := by
  cases h <;> exact ⟨_, ‹_›⟩

/-- An annotation stays right when the store grows. -/
theorem grow (h : e.Annotated s ret fr) (hg : s.GrowsTo s') : e.Annotated s' ret fr := by
  induction h with
  | integer hi => exact .integer (hi.grow hg)
  | float hi => exact .float (hi.grow hg)
  | boolean hi => exact .boolean (hi.grow hg)
  | identifier hi hv => exact .identifier (hi.grow hg) (hg.typeOf hv)
  | member _ hu hload hstruct hindex hfield hi ih =>
    exact .member ih hu (hg.loads hload) (hg.resolved hstruct) hindex hfield (hi.grow hg)
  | call _ _ hf hfunction hfits hi ihcallee ihargs =>
    exact .call ihcallee ihargs hf (hg.same hfunction rfl) (hfits.imp fun _ _ h => hg.fits h) (hi.grow hg)
  | builtinCall hb _ harity hu htakes hi ih =>
    refine .builtinCall hb ih harity (fun e he => ?_) htakes (hi.grow hg)
    obtain ⟨t, ht, hload⟩ := hu e he
    exact ⟨t, ht, hg.loads hload⟩
  | negation hop _ hu hload hi ih => exact .negation hop ih hu (hg.loads hload) (hi.grow hg)
  | address _ hlocation hu ht hi ih => exact .address ih hlocation hu (hg.same ht rfl) (hi.grow hg)
  | binary _ _ hu hv hleft hright htakes hi ihlhs ihrhs =>
    exact .binary ihlhs ihrhs hu hv (hg.loads hleft) (hg.loads hright) htakes (hi.grow hg)
  | assignment _ _ hlocation hu hload hfits hi ihtarget ihsource =>
    exact .assignment ihtarget ihsource hlocation hu (hg.loads hload) (hg.fits hfits) (hi.grow hg)
  | structLiteral _ hstruct honce hfits hi ih =>
    refine .structLiteral ih (hg.resolved hstruct) honce (fun f hf => ?_) (hi.grow hg)
    obtain ⟨u, hu, hfit⟩ := hfits f hf
    exact ⟨u, hu, hg.fits hfit⟩
  | letBinding _ hv ht hfits hfound hi ih =>
    exact .letBinding ih hv (hg.settled ht) (hg.fits hfits) (hg.finds hfound) (hi.grow hg)
  | @block ret fr inner i stmts tail t f hframe houter _ _ hresult hvoid hi ihstmts ihtail =>
    obtain ⟨f', hf', hgrows⟩ := hg.frames inner f hframe
    exact .block hf' (by rw [hgrows.outer]; exact houter) ihstmts ihtail hresult hvoid (hi.grow hg)
  | ifElse _ hbool _ _ hfirst hsecond hvoid hi ihcond ihthen ihother =>
    exact .ifElse ihcond (hg.fits hbool) ihthen ihother (hg.fits hfirst) (fun e he => hg.fits (hsecond e he)) hvoid
      (hi.grow hg)
  | whileLoop _ hbool _ hvoid hi ihcond ihbody =>
    exact .whileLoop ihcond (hg.fits hbool) ihbody (hg.fits hvoid) (hi.grow hg)
  | endlessLoop _ hvoid ht hi ih => exact .endlessLoop ih (hg.fits hvoid) ht (hi.grow hg)
  | leaveLoop hi => exact .leaveLoop (hi.grow hg)
  | nextRound hi => exact .nextRound (hi.grow hg)
  | leaveFunction _ hfits hvoid hi ih =>
    exact .leaveFunction ih (fun e he => hg.fits (hfits e he)) hvoid (hi.grow hg)
  | function hsig hparams _ hfits hi ih =>
    exact .function (hg.same hsig rfl) hparams ih (hg.fits hfits) (hi.grow hg)

/-- It is no misuse to ask a checked tree for its location. -/
theorem hasLocation (h : e.Annotated s ret fr) : ∃ b, e.hasLocation = .ok b := by
  induction h with
  | identifier => exact ⟨_, rfl⟩
  | member _ _ _ _ _ _ _ ih =>
    rw [Expr.hasLocation]
    split
    · exact ⟨true, rfl⟩
    · exact ih
  | _ => exact ⟨false, rfl⟩

theorem place (h : e.Annotated s ret fr) : ∃ p, e.place? = .ok p := by
  induction h with
  | identifier => exact ⟨_, rfl⟩
  | member _ _ _ _ _ _ _ ih =>
    obtain ⟨p, hp⟩ := ih
    rw [Expr.place?, hp, ok_bind]
    cases p <;> exact ⟨_, rfl⟩
  | _ => exact ⟨none, rfl⟩

end Expr.Annotated

/-- A function of the module is checked: its parameters have their types, and its body fits what it returns. -/
def FunctionDecl.Annotated (s : Store) (f : FunctionDecl) : Prop :=
  ∃ sig params returns inner, s.typeAt? sig = some (.function params returns) ∧
    List.Forall₂ (fun p t => p.binding.type = .borrowed t) f.header.params params ∧
    (Expr.block f.body).Annotated s (some returns) inner ∧ s.Fits f.body.info returns ∧ f.info.Typed s sig

theorem FunctionDecl.Annotated.grow {s s' : Store} {f : FunctionDecl} (h : f.Annotated s) (hg : s.GrowsTo s') :
    f.Annotated s' := by
  obtain ⟨sig, params, returns, inner, hsig, hparams, hbody, hfits, hi⟩ := h
  exact ⟨sig, params, returns, inner, hg.same hsig rfl, hparams, hbody.grow hg, hg.fits hfits, hi.grow hg⟩

end RainCheck
