import SchemaTypings.Proofs.Typings.Token

/-!
# What a document lacks

What is noted while the declarations of a document are made can be told from the document
alone, by going through it in the order of its declarations and making none of them. Two
lists say it:

* `Document.gaps`, with an entry for every attribute that a field needs and lacks;
* `Document.lookups`, the tokens that are looked up on the way, of which those that nothing is
  known of are noted.

The notes are these entries, each as often as it occurs, in this order, and no others
(`Document.diagnostics_typings`). Options have a say in nothing but the names of the
declarations that faulty fields belong to.
-/

namespace SchemaTypings

open TypeExpr

namespace Schema

/-! ## Going through a document -/

/-- **What a field lacks**: a name, if it has none or an empty one, and then a type, if it has
none. The second fault tells which field it is about, if that has a name. -/
def Field.gaps (owner : String) (f : Field) : List FieldFault :=
  (if f.name = none ∨ f.name = some "" then [⟨owner, none, .name⟩] else [])
    ++ (if f.type = none then [⟨owner, f.name.filter (· ≠ ""), .type⟩] else [])

/-- The token that a field looks up, if it has a type; an empty one is looked up too. -/
def Field.lookups (f : Field) : List String :=
  f.type.toList

/-- The token that a simple type looks up, if it has a base. -/
def SimpleType.lookups (t : SimpleType) : List String :=
  t.base.toList

/-- The token that a shape looks up for its parent: that of a base that is there and not
empty. -/
def Shape.parentLookups : Shape → List String
  | .sequence _ => []
  | .content base _ => (base.filter (· ≠ "")).toList

/-- What the fields of a complex type lack. -/
def ComplexType.gaps (policy : NamingPolicy) (t : ComplexType) : List FieldFault :=
  t.shape.fields.flatMap (Field.gaps (policy.declare t.name))

/-- The tokens that a complex type looks up: that of its parent comes before its fields. -/
def ComplexType.lookups (t : ComplexType) : List String :=
  t.shape.parentLookups ++ t.shape.fields.flatMap Field.lookups

/-- What the fields of an element lack. -/
def Element.gaps (policy : NamingPolicy) (e : Element) : List FieldFault :=
  e.fields.flatMap (Field.gaps (policy.declare e.name))

/-- The tokens that an element looks up. -/
def Element.lookups (e : Element) : List String :=
  e.fields.flatMap Field.lookups

/-- What the fields of a section lack; simple types have no fields. -/
def Section.gaps (policy : NamingPolicy) (s : Section) : List FieldFault :=
  s.complexTypes.flatMap (ComplexType.gaps policy) ++ s.elements.flatMap (Element.gaps policy)

/-- The tokens that a section looks up: simple types, complex types, elements. -/
def Section.lookups (s : Section) : List String :=
  s.simpleTypes.flatMap SimpleType.lookups
    ++ (s.complexTypes.flatMap ComplexType.lookups ++ s.elements.flatMap Element.lookups)

/-- **What the fields of a document lack**, in the order of its declarations. -/
def Document.gaps (policy : NamingPolicy) (d : Document) : List FieldFault :=
  d.sections.flatMap (Section.gaps policy)

/-- **The tokens that a document looks up**, in the order of its declarations. -/
def Document.lookups (d : Document) : List String :=
  d.sections.flatMap Section.lookups

end Schema

/-! ## The notes of a stretch -/

/-- **The notes of a stretch of a document** with some gaps and some tokens looked up. -/
def Diagnostics.ofStretch (gaps : List FieldFault) (lookups : List String) : Diagnostics :=
  ⟨gaps, unknownAmong lookups⟩

/-- The notes of two stretches are those of the stretch they form. -/
theorem Diagnostics.ofStretch_append (gaps gaps' : List FieldFault)
    (lookups lookups' : List String) :
    ofStretch gaps lookups ++ ofStretch gaps' lookups'
      = ofStretch (gaps ++ gaps') (lookups ++ lookups') := by
  refine Diagnostics.ext rfl ?_
  rw [fallbacks_append]
  exact (unknownAmong_append lookups lookups').symm

open Diagnostics

/-- **The notes of a walk over a list** are those of the stretch that the items form. -/
theorem allNotes_eq {α β : Type} {f : α → StateM Diagnostics β} {gaps : α → List FieldFault}
    {lookups : α → List String} (h : ∀ a, notesOf (f a) = ofStretch (gaps a) (lookups a))
    (l : List α) : allNotes f l = ofStretch (l.flatMap gaps) (l.flatMap lookups) := by
  induction l with
  | nil => rfl
  | cons a l ih =>
    rw [allNotes_cons, h, ih, ofStretch_append, List.flatMap_cons, List.flatMap_cons]

namespace Schema

/-! ## The notes of each part -/

/-- A field notes the name it lacks. -/
theorem Field.notesOf_noteName (owner : String) (f : Field) :
    notesOf (f.noteName owner)
      = ofStretch (if f.name = none ∨ f.name = some "" then [⟨owner, none, .name⟩] else []) [] := by
  obtain ⟨name⟩ := f
  cases name with
  | none => rfl
  | some name =>
    by_cases hempty : name = ""
    · subst hempty
      rfl
    · have hgiven : (some name).filter (· ≠ "") = some name :=
        (Option.filter_some ..).trans (if_pos (decide_eq_true hempty))
      have hnamed : ¬ (some name = none ∨ some name = some "") := by simp [hempty]
      unfold Field.noteName Field.givenName
      simp only [hgiven, hnamed, if_false]
      rfl

/-- A field notes the type it lacks, or the token of its type. -/
theorem Field.notesOf_typeExpr (policy : NamingPolicy) (owner : String) (f : Field) :
    notesOf (f.typeExpr policy owner)
      = ofStretch (if f.type = none then [⟨owner, f.name.filter (· ≠ ""), .type⟩] else [])
          f.lookups := by
  obtain ⟨name, type⟩ := f
  cases type with
  | none => rfl
  | some token => exact notesOf_ofToken policy token

/-- **A field notes what it lacks**, its name before its type. -/
theorem Field.notesOf_member (policy : NamingPolicy) (owner : String) (f : Field) :
    notesOf (f.member policy owner) = ofStretch (f.gaps owner) f.lookups := by
  have hlast := fun type =>
    onlyNotes_pure (⟨f.givenName.getD "", f.mayBeAbsent, type, f.mayRepeat⟩ : Member)
  rw [Field.member, notesOf_bind fun _ => (f.onlyNotes_typeExpr policy owner).bind hlast,
    notesOf_bind hlast, notesOf_pure, append_empty, f.notesOf_noteName owner,
    f.notesOf_typeExpr policy owner, ofStretch_append]
  rfl

/-- **A simple type notes the token of its base.** A restriction of texts to listed values does
not look it up, which makes no difference: texts are known. -/
theorem SimpleType.notesOf_declaration (policy : NamingPolicy) (t : SimpleType) :
    notesOf (t.declaration policy) = ofStretch [] t.lookups := by
  show notesOf (t.body policy) = _
  unfold SimpleType.body SimpleType.lookups
  cases t.base with
  | none => rfl
  | some base =>
    by_cases hstring : base = "string"
    · subst hstring
      rfl
    · simp only [if_neg hstring]
      exact notesOf_ofToken policy base

/-- A shape notes the token of its parent. -/
theorem Shape.notesOf_parent (policy : NamingPolicy) (shape : Shape) :
    notesOf (shape.parent policy) = ofStretch [] shape.parentLookups := by
  cases shape with
  | sequence fields => rfl
  | content base fields => exact notesOf_baseName policy base

/-- **A complex type notes the token of its parent and what its fields lack.** -/
theorem ComplexType.notesOf_declaration (policy : NamingPolicy) (t : ComplexType) :
    notesOf (t.declaration policy) = ofStretch (t.gaps policy) t.lookups := by
  have hmembers := onlyNotes_mapM (Field.onlyNotes_member policy (policy.declare t.name))
    t.shape.fields
  have hlast := fun parent members =>
    onlyNotes_pure (Declaration.interface (policy.declare t.name) parent members)
  show notesOf (t.shape.parent policy >>= fun parent =>
    t.shape.fields.mapM (Field.member policy (policy.declare t.name)) >>= fun members =>
      pure (Declaration.interface (policy.declare t.name) parent members)) = _
  rw [notesOf_bind fun parent => hmembers.bind (hlast parent), notesOf_bind (hlast _),
    notesOf_pure, append_empty, t.shape.notesOf_parent policy,
    notesOf_mapM (Field.onlyNotes_member policy _), allNotes_eq (Field.notesOf_member policy _),
    ofStretch_append]
  rfl

/-- **An element notes what its fields lack.** -/
theorem Element.notesOf_declaration (policy : NamingPolicy) (e : Element) :
    notesOf (e.declaration policy) = ofStretch (e.gaps policy) e.lookups := by
  show notesOf (e.fields.mapM (Field.member policy (policy.declare e.name)) >>= fun members =>
    pure (Declaration.interface (policy.declare e.name) none members)) = _
  rw [notesOf_bind fun _ => onlyNotes_pure _, notesOf_pure, append_empty,
    notesOf_mapM (Field.onlyNotes_member policy _), allNotes_eq (Field.notesOf_member policy _)]
  rfl

/-- **A section notes what its declarations note**, in their order. -/
theorem Section.notesOf_declarations (policy : NamingPolicy) (s : Section) :
    notesOf (s.declarations policy) = ofStretch (s.gaps policy) s.lookups := by
  rw [s.notesOf_declarations_eq policy,
    allNotes_eq (SimpleType.notesOf_declaration policy),
    allNotes_eq (ComplexType.notesOf_declaration policy),
    allNotes_eq (Element.notesOf_declaration policy), ofStretch_append, ofStretch_append]
  -- the simple types add no gaps
  have hnone : (s.simpleTypes.flatMap fun _ => ([] : List FieldFault)) = [] :=
    List.flatMap_eq_nil_iff.mpr fun _ _ => rfl
  rw [hnone]
  rfl

/-- A document notes what its sections note. -/
theorem Document.notesOf_declarations (policy : NamingPolicy) (d : Document) :
    notesOf (d.declarations policy) = ofStretch (d.gaps policy) d.lookups := by
  rw [Document.declarations, notesOf_map, notesOf_mapM (Section.onlyNotes_declarations policy)]
  exact allNotes_eq (Section.notesOf_declarations policy) d.sections

/-- **The notes of a document are told from the document.** Its faults are the gaps of its
fields, and its fallbacks are the tokens it looks up and of which nothing is known: in the
order of the declarations, one entry for each occurrence, and no other entry. So the options
that the file is written with change no fallback, and of the faults no more than the owners. -/
theorem Document.diagnostics_typings (d : Document) (options : OutputOptions) :
    (d.typings options).diagnostics.faults = d.gaps options.naming
      ∧ (d.typings options).diagnostics.fallbacks = d.lookups.filter (fun token => Unknown token)
      ∧ ∀ other : OutputOptions, (d.typings other).diagnostics.fallbacks
        = (d.typings options).diagnostics.fallbacks := by
  have hnotes : ∀ options : OutputOptions,
      (d.typings options).diagnostics = ofStretch (d.gaps options.naming) d.lookups :=
    fun options => d.notesOf_declarations options.naming
  refine ⟨?_, ?_, fun other => ?_⟩
  · rw [hnotes]
    rfl
  · rw [hnotes]
    rfl
  · rw [hnotes, hnotes]
    rfl

end Schema

end SchemaTypings
