/-!
# Namespace prefixes

A WSDL document writes `tns:Request` or `xsd:string` where it refers to a type. The tool
does not resolve namespaces: before a document is read as XML, the colon of every known
prefix is taken out of its text, so that what is left is a plain name that still tells
where it came from.

* `xsd:` disappears, since the types of XML Schema are known by their own names;
* every other known prefix keeps its name and ends in `_`, so `tns:Request` becomes
  `tns_Request`.

Prefixes are replaced without regard to where names stand, in the whole text, attribute
values included. Four of the prefixes are *type markers*: a token that carries one of them
refers to a type which some schema declares.
-/

namespace SchemaTypings

/-- **A known namespace prefix.** -/
inductive KnownPrefix where
  /-- The namespace of XML Schema itself. -/
  | xsd
  /-- The target namespace. -/
  | tns
  /-- A namespace of element types. -/
  | ens
  /-- A namespace of message types. -/
  | mns
  /-- A namespace of fault types. -/
  | fns
  /-- The SOAP binding. -/
  | soap
  /-- Namespace declarations. -/
  | xmlns
deriving DecidableEq, Repr

namespace KnownPrefix

/-- All known prefixes. -/
def all : List KnownPrefix :=
  [.xsd, .tns, .ens, .mns, .fns, .soap, .xmlns]

/-- How a prefix is spelled. -/
def spelling : KnownPrefix → List Char
  | .xsd => ['x', 's', 'd']
  | .tns => ['t', 'n', 's']
  | .ens => ['e', 'n', 's']
  | .mns => ['m', 'n', 's']
  | .fns => ['f', 'n', 's']
  | .soap => ['s', 'o', 'a', 'p']
  | .xmlns => ['x', 'm', 'l', 'n', 's']

/-- What a document writes: the prefix and its colon. -/
def written (p : KnownPrefix) : List Char :=
  p.spelling ++ [':']

/-- The prefix with an underscore in place of the colon. -/
def marker (p : KnownPrefix) : List Char :=
  p.spelling ++ ['_']

/-- **What a prefix is replaced by**: nothing for XML Schema, its marker for all others. -/
def replacement : KnownPrefix → List Char
  | .xsd => []
  | p => p.marker

/-- The known prefix that a text begins with, and what follows its colon. -/
def leading? (cs : List Char) : Option (KnownPrefix × List Char) :=
  all.findSome? fun p => (p.written.isPrefixOf? cs).map (p, ·)

end KnownPrefix

/-- What is left of a text after a known beginning. -/
theorem eq_append_of_isPrefixOf? {lead cs rest : List Char}
    (h : lead.isPrefixOf? cs = some rest) : cs = lead ++ rest := by
  induction lead generalizing cs with
  | nil => exact Option.some.inj h
  | cons c lead ih =>
    cases cs with
    | nil => cases h
    | cons d cs =>
      change (if c == d then lead.isPrefixOf? cs else none) = some rest at h
      split at h
      · rename_i hcd
        rw [ih h, beq_iff_eq.mp hcd, List.cons_append]
      · cases h

namespace KnownPrefix

theorem eq_append_of_leading? {cs rest : List Char} {p : KnownPrefix}
    (h : leading? cs = some (p, rest)) : cs = p.written ++ rest := by
  obtain ⟨q, -, hq⟩ := List.exists_of_findSome?_eq_some h
  obtain ⟨r, hr, heq⟩ := Option.map_eq_some_iff.mp hq
  obtain ⟨rfl, rfl⟩ := Prod.mk.injEq .. ▸ heq
  exact eq_append_of_isPrefixOf? hr

theorem length_lt_of_leading? {cs rest : List Char} {p : KnownPrefix}
    (h : leading? cs = some (p, rest)) : rest.length < cs.length := by
  rw [eq_append_of_leading? h, written]
  simp only [List.length_append, List.length_singleton]
  omega

/-- **Replacing the prefixes of a text**: from left to right, every known prefix with its colon
gives way to its replacement, and every other character stays. -/
def replaceAll (cs : List Char) : List Char :=
  match _found : leading? cs with
  | some (p, rest) => p.replacement ++ replaceAll rest
  | none =>
    match cs with
    | [] => []
    | c :: cs => c :: replaceAll cs
termination_by cs.length
decreasing_by
  · exact length_lt_of_leading? _found
  · simp

/-! ## Type markers -/

/-- The prefixes that mark a reference to a declared type. -/
def typeMarkers : List KnownPrefix :=
  [.tns, .ens, .mns, .fns]

/-- What follows the type marker of a token; nothing if it carries none. -/
def afterMarker? (token : String) : Option String :=
  typeMarkers.findSome? fun p => (p.marker.isPrefixOf? token.toList).map String.ofList

end KnownPrefix

/-- A text with every known namespace prefix replaced. -/
def replacePrefixes (text : String) : String :=
  String.ofList (KnownPrefix.replaceAll text.toList)

end SchemaTypings
