import SchemaTypings.Typings.File

/-!
# Computations that only note

Making declarations is a computation on the diagnostics, and what has been noted before is
passed through all of it. It has no influence: every such computation returns the same value
whatever was noted, and adds the same notes at the end (`OnlyNotes`). So each has a value and
notes of its own, `valueOf` and `notesOf`, and those of a sequence of computations are put
together from those of its parts.
-/

namespace SchemaTypings

open Schema

variable {α β : Type}

/-- **What a computation returns**, if nothing was noted before it. -/
def valueOf (x : StateM Diagnostics α) : α :=
  (x.run {}).1

/-- **What a computation notes**, if nothing was noted before it. -/
def notesOf (x : StateM Diagnostics α) : Diagnostics :=
  (x.run {}).2

/-- **A computation only notes** if what was noted before changes neither its value nor what it
notes: it is kept, and the notes of the computation follow it. -/
def OnlyNotes (x : StateM Diagnostics α) : Prop :=
  ∀ noted : Diagnostics, x.run noted = (valueOf x, noted ++ notesOf x)

/-! ## Putting computations together -/

@[simp] theorem valueOf_pure (a : α) : valueOf (pure a) = a := rfl

@[simp] theorem notesOf_pure (a : α) : notesOf (pure a) = {} := rfl

theorem onlyNotes_pure (a : α) : OnlyNotes (pure a) := by
  intro noted
  show (a, noted) = (a, noted ++ ({} : Diagnostics))
  rw [Diagnostics.append_empty]

/-- The value of a sequence is that of its second part, and the first decides only which one
that is. -/
theorem valueOf_bind {f : α → StateM Diagnostics β} (hf : ∀ a, OnlyNotes (f a))
    (x : StateM Diagnostics α) : valueOf (x >>= f) = valueOf (f (valueOf x)) := by
  show ((f (valueOf x)).run (notesOf x)).1 = _
  rw [hf]

/-- The notes of a sequence are those of its parts, one after the other. -/
theorem notesOf_bind {f : α → StateM Diagnostics β} (hf : ∀ a, OnlyNotes (f a))
    (x : StateM Diagnostics α) :
    notesOf (x >>= f) = notesOf x ++ notesOf (f (valueOf x)) := by
  show ((f (valueOf x)).run (notesOf x)).2 = _
  rw [hf]

/-- **A sequence of computations that only note only notes.** -/
theorem OnlyNotes.bind {x : StateM Diagnostics α} {f : α → StateM Diagnostics β}
    (hx : OnlyNotes x) (hf : ∀ a, OnlyNotes (f a)) : OnlyNotes (x >>= f) := by
  intro noted
  have hrun : (x >>= f).run noted = (f (valueOf x)).run (noted ++ notesOf x) := by
    show (f (x.run noted).1).run (x.run noted).2 = _
    rw [hx]
  rw [hrun, hf, valueOf_bind hf, notesOf_bind hf, Diagnostics.append_assoc]

@[simp] theorem valueOf_map (f : α → β) (x : StateM Diagnostics α) :
    valueOf (f <$> x) = f (valueOf x) := rfl

@[simp] theorem notesOf_map (f : α → β) (x : StateM Diagnostics α) :
    notesOf (f <$> x) = notesOf x := rfl

theorem OnlyNotes.map {x : StateM Diagnostics α} (hx : OnlyNotes x) (f : α → β) :
    OnlyNotes (f <$> x) := by
  intro noted
  show (f (x.run noted).1, (x.run noted).2) = _
  rw [hx]
  rfl

/-- The notes of several computations, one after another. -/
def allNotes (f : α → StateM Diagnostics β) (l : List α) : Diagnostics :=
  (l.map fun a => notesOf (f a)).foldr (· ++ ·) {}

@[simp] theorem allNotes_nil (f : α → StateM Diagnostics β) : allNotes f [] = {} := rfl

@[simp] theorem allNotes_cons (f : α → StateM Diagnostics β) (a : α) (l : List α) :
    allNotes f (a :: l) = notesOf (f a) ++ allNotes f l := rfl

/-- The notes of a list that is put together are those of its parts. -/
theorem allNotes_append (f : α → StateM Diagnostics β) (a b : List α) :
    allNotes f (a ++ b) = allNotes f a ++ allNotes f b := by
  induction a with
  | nil => rw [List.nil_append, allNotes_nil, Diagnostics.empty_append]
  | cons x a ih => rw [List.cons_append, allNotes_cons, ih, allNotes_cons, Diagnostics.append_assoc]

/-- **A walk over a list only notes**; it returns the values one by one, and its notes are
those of the steps in their order. -/
theorem run_mapM {f : α → StateM Diagnostics β} (hf : ∀ a, OnlyNotes (f a)) (l : List α)
    (noted : Diagnostics) :
    (l.mapM f).run noted = (l.map fun a => valueOf (f a), noted ++ allNotes f l) := by
  induction l generalizing noted with
  | nil =>
    rw [List.mapM_nil, allNotes_nil, Diagnostics.append_empty]
    rfl
  | cons a l ih =>
    rw [List.mapM_cons]
    show (fun result : List β × Diagnostics =>
      (((f a).run noted).1 :: result.1, result.2)) ((l.mapM f).run ((f a).run noted).2) = _
    rw [ih, hf, allNotes_cons, Diagnostics.append_assoc]
    rfl

@[simp] theorem valueOf_mapM {f : α → StateM Diagnostics β} (hf : ∀ a, OnlyNotes (f a))
    (l : List α) : valueOf (l.mapM f) = l.map fun a => valueOf (f a) := by
  rw [valueOf, run_mapM hf]

@[simp] theorem notesOf_mapM {f : α → StateM Diagnostics β} (hf : ∀ a, OnlyNotes (f a))
    (l : List α) : notesOf (l.mapM f) = allNotes f l := by
  rw [notesOf, run_mapM hf, Diagnostics.empty_append]

theorem onlyNotes_mapM {f : α → StateM Diagnostics β} (hf : ∀ a, OnlyNotes (f a))
    (l : List α) : OnlyNotes (l.mapM f) := by
  intro noted
  rw [run_mapM hf, valueOf_mapM hf, notesOf_mapM hf]

/-! ## What is noted -/

theorem onlyNotes_addFault (fault : FieldFault) :
    OnlyNotes (modify (·.addFault fault) : StateM Diagnostics Unit) := by
  intro noted
  show ((), noted.addFault fault) = ((), noted ++ ({} : Diagnostics).addFault fault)
  rw [Diagnostics.addFault_eq_append, Diagnostics.addFault_eq_append,
    Diagnostics.empty_append]

theorem onlyNotes_addFallback (token : String) :
    OnlyNotes (modify (·.addFallback token) : StateM Diagnostics Unit) := by
  intro noted
  show ((), noted.addFallback token) = ((), noted ++ ({} : Diagnostics).addFallback token)
  rw [Diagnostics.addFallback_eq_append, Diagnostics.addFallback_eq_append,
    Diagnostics.empty_append]

/-! ## Making declarations only notes -/

theorem TypeExpr.onlyNotes_ofToken (policy : NamingPolicy) (token : String) :
    OnlyNotes (TypeExpr.ofToken policy token) := by
  unfold TypeExpr.ofToken
  split
  · exact onlyNotes_pure _
  · split
    · exact onlyNotes_pure _
    · exact (onlyNotes_addFallback token).bind fun _ => onlyNotes_pure _

theorem TypeExpr.onlyNotes_baseName (policy : NamingPolicy) (base : Option String) :
    OnlyNotes (TypeExpr.baseName policy base) := by
  unfold TypeExpr.baseName
  split
  · exact onlyNotes_pure _
  · rename_i token _
    have hnoted := (onlyNotes_addFallback token).bind fun _ => onlyNotes_pure (none : Option String)
    split
    · exact onlyNotes_pure _
    · split
      · split
        · exact hnoted
        · exact onlyNotes_pure _
      · exact hnoted

namespace Schema

theorem Field.onlyNotes_noteName (owner : String) (f : Field) :
    OnlyNotes (f.noteName owner) := by
  unfold Field.noteName
  split
  · exact onlyNotes_addFault _
  · exact onlyNotes_pure _

theorem Field.onlyNotes_typeExpr (policy : NamingPolicy) (owner : String) (f : Field) :
    OnlyNotes (f.typeExpr policy owner) := by
  unfold Field.typeExpr
  split
  · exact TypeExpr.onlyNotes_ofToken policy _
  · exact (onlyNotes_addFault _).bind fun _ => onlyNotes_pure _

theorem Field.onlyNotes_member (policy : NamingPolicy) (owner : String) (f : Field) :
    OnlyNotes (f.member policy owner) :=
  (f.onlyNotes_noteName owner).bind fun _ =>
    (f.onlyNotes_typeExpr policy owner).bind fun _ => onlyNotes_pure _

theorem SimpleType.onlyNotes_body (policy : NamingPolicy) (t : SimpleType) :
    OnlyNotes (t.body policy) := by
  unfold SimpleType.body
  split
  · exact onlyNotes_pure _
  · split
    · exact onlyNotes_pure _
    · exact (TypeExpr.onlyNotes_ofToken policy _).map _

theorem SimpleType.onlyNotes_declaration (policy : NamingPolicy) (t : SimpleType) :
    OnlyNotes (t.declaration policy) :=
  (t.onlyNotes_body policy).map _

theorem Shape.onlyNotes_parent (policy : NamingPolicy) (shape : Shape) :
    OnlyNotes (shape.parent policy) := by
  cases shape with
  | sequence fields => exact onlyNotes_pure _
  | content base fields => exact TypeExpr.onlyNotes_baseName policy base

theorem ComplexType.onlyNotes_declaration (policy : NamingPolicy) (t : ComplexType) :
    OnlyNotes (t.declaration policy) :=
  (t.shape.onlyNotes_parent policy).bind fun _ =>
    (onlyNotes_mapM (Field.onlyNotes_member policy _) _).bind fun _ => onlyNotes_pure _

theorem Element.onlyNotes_declaration (policy : NamingPolicy) (e : Element) :
    OnlyNotes (e.declaration policy) :=
  (onlyNotes_mapM (Field.onlyNotes_member policy _) _).bind fun _ => onlyNotes_pure _

theorem Section.onlyNotes_declarations (policy : NamingPolicy) (s : Section) :
    OnlyNotes (s.declarations policy) :=
  (onlyNotes_mapM (SimpleType.onlyNotes_declaration policy) _).bind fun _ =>
    (onlyNotes_mapM (ComplexType.onlyNotes_declaration policy) _).bind fun _ =>
      (onlyNotes_mapM (Element.onlyNotes_declaration policy) _).bind fun _ => onlyNotes_pure _

/-- **Making the declarations of a document only notes.** -/
theorem Document.onlyNotes_declarations (policy : NamingPolicy) (d : Document) :
    OnlyNotes (d.declarations policy) :=
  (onlyNotes_mapM (Section.onlyNotes_declarations policy) _).map _

/-! ## What is declared -/

/-- The member a field becomes. -/
theorem Field.valueOf_member (policy : NamingPolicy) (owner : String) (f : Field) :
    valueOf (f.member policy owner)
      = { name := f.givenName.getD "", optional := f.mayBeAbsent,
          type := valueOf (f.typeExpr policy owner), repeated := f.mayRepeat } := by
  have hlast := fun type =>
    onlyNotes_pure (⟨f.givenName.getD "", f.mayBeAbsent, type, f.mayRepeat⟩ : Member)
  rw [Field.member, valueOf_bind fun _ => (f.onlyNotes_typeExpr policy owner).bind hlast,
    valueOf_bind hlast, valueOf_pure]

/-- The alias a simple type becomes. -/
theorem SimpleType.valueOf_declaration (policy : NamingPolicy) (t : SimpleType) :
    valueOf (t.declaration policy)
      = .typeAlias (policy.declare t.name) (valueOf (t.body policy)) := rfl

/-- The interface a complex type becomes. -/
theorem ComplexType.valueOf_declaration (policy : NamingPolicy) (t : ComplexType) :
    valueOf (t.declaration policy)
      = .interface (policy.declare t.name) (valueOf (t.shape.parent policy))
        (t.shape.fields.map fun f => valueOf (f.member policy (policy.declare t.name))) := by
  have hmembers := onlyNotes_mapM (Field.onlyNotes_member policy (policy.declare t.name))
    t.shape.fields
  have hlast := fun parent members =>
    onlyNotes_pure (Declaration.interface (policy.declare t.name) parent members)
  show valueOf (t.shape.parent policy >>= fun parent =>
    t.shape.fields.mapM (Field.member policy (policy.declare t.name)) >>= fun members =>
      pure (Declaration.interface (policy.declare t.name) parent members)) = _
  rw [valueOf_bind fun parent => hmembers.bind (hlast parent), valueOf_bind (hlast _),
    valueOf_pure, valueOf_mapM (Field.onlyNotes_member policy _)]

/-- The interface an element becomes. -/
theorem Element.valueOf_declaration (policy : NamingPolicy) (e : Element) :
    valueOf (e.declaration policy)
      = .interface (policy.declare e.name) none
        (e.fields.map fun f => valueOf (f.member policy (policy.declare e.name))) := by
  show valueOf (e.fields.mapM (Field.member policy (policy.declare e.name)) >>= fun members =>
    pure (Declaration.interface (policy.declare e.name) none members)) = _
  rw [valueOf_bind fun _ => onlyNotes_pure _, valueOf_pure,
    valueOf_mapM (Field.onlyNotes_member policy _)]

/-- **What a section declares**: simple types, complex types, elements. -/
theorem Section.valueOf_declarations (policy : NamingPolicy) (s : Section) :
    valueOf (s.declarations policy)
      = (s.simpleTypes.map fun t => valueOf (t.declaration policy))
        ++ (s.complexTypes.map fun t => valueOf (t.declaration policy))
        ++ (s.elements.map fun e => valueOf (e.declaration policy)) := by
  have hcomplex := onlyNotes_mapM (ComplexType.onlyNotes_declaration policy) s.complexTypes
  have helement := onlyNotes_mapM (Element.onlyNotes_declaration policy) s.elements
  -- what follows each walk only notes, so its value does not depend on what was noted
  have hlast := fun (a b c : List Declaration) => onlyNotes_pure (a ++ b ++ c)
  rw [Section.declarations,
    valueOf_bind fun a => hcomplex.bind fun b => helement.bind (hlast a b),
    valueOf_bind fun b => helement.bind (hlast _ b), valueOf_bind (hlast _ _), valueOf_pure,
    valueOf_mapM (SimpleType.onlyNotes_declaration policy),
    valueOf_mapM (ComplexType.onlyNotes_declaration policy),
    valueOf_mapM (Element.onlyNotes_declaration policy)]

/-- **What a section notes**: what its declarations note, in their order. -/
theorem Section.notesOf_declarations_eq (policy : NamingPolicy) (s : Section) :
    notesOf (s.declarations policy)
      = allNotes (SimpleType.declaration policy) s.simpleTypes
        ++ (allNotes (ComplexType.declaration policy) s.complexTypes
          ++ allNotes (Element.declaration policy) s.elements) := by
  have hcomplex := onlyNotes_mapM (ComplexType.onlyNotes_declaration policy) s.complexTypes
  have helement := onlyNotes_mapM (Element.onlyNotes_declaration policy) s.elements
  have hlast := fun (a b c : List Declaration) => onlyNotes_pure (a ++ b ++ c)
  rw [Section.declarations,
    notesOf_bind fun a => hcomplex.bind fun b => helement.bind (hlast a b),
    notesOf_bind fun b => helement.bind (hlast _ b), notesOf_bind (hlast _ _), notesOf_pure,
    Diagnostics.append_empty, notesOf_mapM (SimpleType.onlyNotes_declaration policy),
    notesOf_mapM (ComplexType.onlyNotes_declaration policy),
    notesOf_mapM (Element.onlyNotes_declaration policy)]

/-- **What a document declares**, whatever was noted before. -/
def Document.declared (policy : NamingPolicy) (d : Document) : List Declaration :=
  valueOf (d.declarations policy)

/-- A document declares what its sections declare, in their order. -/
theorem Document.declared_eq (policy : NamingPolicy) (d : Document) :
    d.declared policy = d.sections.flatMap fun s => valueOf (s.declarations policy) := by
  rw [Document.declared, Document.declarations, valueOf_map,
    valueOf_mapM (Section.onlyNotes_declarations policy), List.flatMap]

/-- The text of a file is that of the declarations, after the directives if there are any. -/
theorem Document.text_typings (d : Document) (options : OutputOptions) :
    (d.typings options).text
      = (if options.header then lintDirectives else "")
        ++ declarationsText options.indent (d.declared options.naming) := rfl

end Schema

end SchemaTypings
