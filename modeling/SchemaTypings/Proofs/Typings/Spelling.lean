import SchemaTypings.Proofs.Naming.Literal
import SchemaTypings.Typings.Declaration
import SchemaTypings.Naming.Reserved

/-!
# Declarations told from their text

The text of some declarations says what they are: two lists of declarations that are written
alike, with the same indentation, are the same (`eq_of_declarationsText_eq`). Nothing stands
between declarations, members or the parts of a member but what belongs to them, so each
spelling is shown to end by itself or to be told from what follows it in its place, from the
parts to the whole.

This asks for type names that are identifiers and not reserved. Field names and listed values
may be any texts.
-/

namespace SchemaTypings

open Naming

/-! ## Types -/

/-- **A type with a clear name**: a declared type is named by an identifier which is not
reserved, and so is no predefined type. -/
def TypeExpr.Clear : TypeExpr → Prop
  | .named name => isIdentifier name = true ∧ isReserved name = false
  | _ => True

/-- The text of a type with a clear name is an identifier. -/
theorem TypeExpr.isIdentifier_text {t : TypeExpr} (h : t.Clear) :
    isIdentifier t.text = true := by
  cases t with
  | named name => exact h.1
  | boolean | string | date | number | any => decide

/-- The types that are not declared. -/
def TypeExpr.predefined : List TypeExpr :=
  [.boolean, .string, .date, .number, .any]

/-- The predefined types are written as reserved words. -/
theorem TypeExpr.isReserved_text_of_mem_predefined {t : TypeExpr} (h : t ∈ predefined) :
    isReserved t.text = true := by
  have hall : ∀ p ∈ predefined, isReserved p.text = true := by decide
  exact hall t h

/-- **A type that is not named by a reserved word.** -/
def TypeExpr.Unreserved : TypeExpr → Prop
  | .named name => isReserved name = false
  | _ => True

theorem TypeExpr.Clear.unreserved {t : TypeExpr} (h : t.Clear) : t.Unreserved := by
  cases t with
  | named name => exact h.2
  | boolean | string | date | number | any => trivial

/-- The type that a text is the text of. -/
def TypeExpr.ofText (text : String) : TypeExpr :=
  (predefined.find? (·.text = text)).getD (.named text)

/-- The type is read back from its text: a predefined one is reserved, and no other is. -/
theorem TypeExpr.ofText_text {t : TypeExpr} (h : t.Unreserved) : ofText t.text = t := by
  cases t with
  | named name =>
    have hnone : predefined.find? (·.text = name) = none := by
      rw [List.find?_eq_none]
      intro p hp heq
      have hname := isReserved_text_of_mem_predefined hp
      rw [decide_eq_true_iff.mp heq, show isReserved name = false from h] at hname
      cases hname
    show (predefined.find? (·.text = name)).getD (.named name) = _
    rw [hnone, Option.getD_none]
  | boolean | string | date | number | any => decide

/-- **Types that are not named by reserved words are told apart by their texts.** -/
theorem TypeExpr.eq_of_text_eq {t u : TypeExpr} (ht : t.Unreserved) (hu : u.Unreserved)
    (h : t.text = u.text) : t = u := by
  rw [← ofText_text ht, h, ofText_text hu]

/-! ## Members -/

/-- The mark of a member that may be left out. -/
def Member.mark (m : Member) : List Char :=
  if m.optional then ['?'] else []

/-- The line of a member, and what follows it, in characters. -/
theorem Member.toList_text_append (indent : String) (m : Member) (rest : List Char) :
    (m.text indent).toList ++ rest
      = indent.toList ++ ((memberKey m.name).toList
        ++ (m.mark ++ ':' :: ' ' :: (m.typeText.toList ++ ';' :: '\n' :: rest))) := by
  cases hoptional : m.optional with
  | true => simp [Member.text, mark, hoptional]
  | false => simp [Member.text, mark, hoptional]

/-- What follows the key of a member begins with a question mark or a colon. -/
theorem Member.exists_mark_append (m : Member) (rest : List Char) :
    ∃ c more, m.mark ++ ':' :: rest = c :: more ∧ isIdentifierPart c = false ∧ c ≠ '\''
      ∧ c ≠ '\x7d' := by
  cases hoptional : m.optional with
  | true =>
    exact ⟨'?', ':' :: rest, by simp [mark, hoptional], by decide, by decide, by decide⟩
  | false => exact ⟨':', rest, by simp [mark, hoptional], by decide, by decide, by decide⟩

/-- The mark of a member is told from the colon. -/
theorem Member.mark_append_inj {m n : Member} {r s : List Char}
    (h : m.mark ++ ':' :: r = n.mark ++ ':' :: s) : m.optional = n.optional ∧ r = s := by
  unfold mark at h
  cases hm : m.optional <;> cases hn : n.optional <;> simp [hm, hn] at h ⊢
  · exact h
  · exact h

/-- The type of a member is told from the end of its line. -/
theorem Member.typeText_append_inj {m n : Member} (hm : m.type.Clear) (hn : n.type.Clear)
    {r s : List Char} (h : m.typeText.toList ++ ';' :: r = n.typeText.toList ++ ';' :: s) :
    m.type = n.type ∧ m.repeated = n.repeated ∧ r = s := by
  have htext : ∀ (m : Member) (r : List Char), m.typeText.toList ++ ';' :: r
      = m.type.text.toList ++ if m.repeated then
          ' ' :: '|' :: ' ' :: (m.type.text.toList ++ '[' :: ']' :: ';' :: r) else ';' :: r := by
    intro m r
    cases hrepeated : m.repeated with
    | true => simp [typeText, hrepeated]
    | false => simp [typeText, hrepeated]
  have hidentifier := TypeExpr.isIdentifier_text hm
  have hidentifier' := TypeExpr.isIdentifier_text hn
  rw [htext, htext] at h
  cases hmr : m.repeated with
  | true =>
    cases hnr : n.repeated with
    | true =>
      rw [hmr, hnr, if_pos rfl, if_pos rfl] at h
      obtain ⟨htype, -, hrest⟩ :=
        identifier_append_cons_inj hidentifier hidentifier' (by decide) (by decide) h
      refine ⟨TypeExpr.eq_of_text_eq hm.unreserved hn.unreserved htype, rfl, ?_⟩
      rw [htype] at hrest
      simpa using hrest
    | false =>
      rw [hmr, hnr, if_pos rfl, if_neg Bool.false_ne_true] at h
      obtain ⟨-, hchar, -⟩ :=
        identifier_append_cons_inj hidentifier hidentifier' (by decide) (by decide) h
      exact absurd hchar (by decide)
  | false =>
    cases hnr : n.repeated with
    | true =>
      rw [hmr, hnr, if_pos rfl, if_neg Bool.false_ne_true] at h
      obtain ⟨-, hchar, -⟩ :=
        identifier_append_cons_inj hidentifier hidentifier' (by decide) (by decide) h
      exact absurd hchar (by decide)
    | false =>
      rw [hmr, hnr, if_neg Bool.false_ne_true, if_neg Bool.false_ne_true] at h
      obtain ⟨htype, -, hrest⟩ :=
        identifier_append_cons_inj hidentifier hidentifier' (by decide) (by decide) h
      exact ⟨TypeExpr.eq_of_text_eq hm.unreserved hn.unreserved htype, rfl, hrest⟩

/-- **The line of a member says what the member is**, whatever follows it. -/
theorem Member.prefixFree_text (indent : String) :
    PrefixFree (fun m : Member => m.type.Clear) fun m => (m.text indent).toList := by
  intro m n hm hn r s h
  change (m.text indent).toList ++ r = (n.text indent).toList ++ s at h
  rw [toList_text_append, toList_text_append, List.append_cancel_left_eq] at h
  obtain ⟨c, more, hmark, hc, hcquote, -⟩ := m.exists_mark_append
    (' ' :: (m.typeText.toList ++ ';' :: '\n' :: r))
  obtain ⟨d, more', hmark', hd, hdquote, -⟩ := n.exists_mark_append
    (' ' :: (n.typeText.toList ++ ';' :: '\n' :: s))
  -- the key ends at the first character of the mark and the colon, which then form one text again
  rw [hmark, hmark'] at h
  obtain ⟨hname, hchar, hrest⟩ := memberKey_append_cons_inj hc hd hcquote hdquote h
  have hmarks : c :: more = d :: more' := by rw [hchar, hrest]
  rw [← hmark, ← hmark'] at hmarks
  obtain ⟨hoptional, htypes⟩ := mark_append_inj hmarks
  obtain ⟨htype, hrepeated, hend⟩ :=
    typeText_append_inj hm hn (List.cons_eq_cons.mp htypes).2
  refine ⟨?_, (List.cons_eq_cons.mp hend).2⟩
  obtain ⟨name, optional, type, repeated⟩ := m
  obtain ⟨name', optional', type', repeated'⟩ := n
  exact congr (congr (congr (congrArg Member.mk hname) hoptional) htype) hrepeated

/-- **An indentation**: nothing but spaces and tabs. -/
def IsIndent (indent : String) : Prop :=
  ∀ c ∈ indent.toList, c = ' ' ∨ c = '\t'

/-- A member is told from the end of the interface it stands in: it does not begin with a
brace, even if nothing is indented and the member has no name. -/
theorem Member.not_text_prefix_brace {indent : String} (hindent : IsIndent indent) (m : Member)
    (rest : List Char) : ¬ (m.text indent).toList <+: '\x7d' :: rest := by
  rintro ⟨after, h⟩
  rw [toList_text_append] at h
  cases hspaces : indent.toList with
  | nil =>
    obtain ⟨c, more, hmark, hc, hcquote, hcbrace⟩ := m.exists_mark_append
      (' ' :: (m.typeText.toList ++ ';' :: '\n' :: after))
    rw [hspaces, List.nil_append, hmark] at h
    -- the brace would follow the bare key of a member without a name
    have hkey : (memberKey m.name).toList ++ c :: more
        = (memberKey "").toList ++ '\x7d' :: rest := h
    exact hcbrace (memberKey_append_cons_inj hc (by decide) hcquote (by decide) hkey).2.1
  | cons c cs =>
    rw [hspaces] at h
    have hc : c = '\x7d' := (List.cons_eq_cons.mp h).1
    rcases hindent c (hspaces ▸ List.mem_cons_self) with hblank | hblank
    · exact absurd (hc.symm.trans hblank) (by decide)
    · exact absurd (hc.symm.trans hblank) (by decide)

/-! ## Aliases -/

/-- **What an alias stands for is clear** if its type has a clear name, and if there is a
literal where literals are listed. -/
def AliasBody.Clear : AliasBody → Prop
  | .literals values => values ≠ []
  | .scalar t => t.Clear

/-- A literal of a union after the first. -/
def armText (value : String) : List Char :=
  '\n' :: '|' :: ' ' :: (quote value).toList

/-- A union is its first literal and the further arms. -/
theorem AliasBody.toList_text_literals (value : String) (values : List String) :
    (AliasBody.literals (value :: values)).text.toList
      = (quote value).toList ++ values.flatMap armText := by
  have hbar : "\n| ".toList = ['\n', '|', ' '] := rfl
  show ("\n| ".intercalate ((value :: values).map quote)).toList = _
  induction values generalizing value with
  | nil => rw [List.map_singleton, String.intercalate_singleton, List.flatMap_nil, List.append_nil]
  | cons next values ih =>
    rw [List.map_cons, List.map_cons, String.intercalate_cons_cons, ← List.map_cons,
      String.toList_append, ih, List.flatMap_cons, armText, String.toList_append, hbar,
      List.append_assoc]
    simp only [List.cons_append, List.nil_append]

/-- The arms of a union are told from what follows them. -/
theorem prefixFree_armText : PrefixFree (fun _ => True) armText := by
  intro a b _ _ r s h
  exact prefixFree_quote trivial trivial
    (List.cons_eq_cons.mp (List.cons_eq_cons.mp (List.cons_eq_cons.mp h).2).2).2

/-- An arm does not begin where an alias ends. -/
theorem not_armText_prefix_semicolon (value : String) (rest : List Char) :
    ¬ armText value <+: ';' :: rest := by
  rintro ⟨after, h⟩
  exact absurd (List.cons_eq_cons.mp h).1 (by decide)

/-- **What an alias stands for is told from the end of the alias.** -/
theorem AliasBody.text_append_inj {a b : AliasBody} (ha : a.Clear) (hb : b.Clear)
    {r s : List Char} (h : a.text.toList ++ ';' :: r = b.text.toList ++ ';' :: s) :
    a = b ∧ r = s := by
  have hdifferent : ∀ (value : String) (values : List String) (t : TypeExpr), t.Clear →
      ∀ r s : List Char, t.text.toList ++ ';' :: r
        ≠ (AliasBody.literals (value :: values)).text.toList ++ s := by
    intro value values t ht r s
    rw [toList_text_literals, List.append_assoc]
    exact append_cons_ne_quote_append
      (isIdentifierPart_of_mem (TypeExpr.isIdentifier_text ht)) (by decide) value r _
  -- a literal begins with a quote, and no type does
  cases a with
  | literals values =>
    cases values with
    | nil => exact absurd rfl ha
    | cons value values =>
      cases b with
      | literals values' =>
        cases values' with
        | nil => exact absurd rfl hb
        | cons value' values' =>
          rw [toList_text_literals, toList_text_literals, List.append_assoc,
            List.append_assoc] at h
          obtain ⟨rfl, harms⟩ := prefixFree_quote trivial trivial h
          obtain ⟨rfl, hend⟩ := prefixFree_armText.flatMap
            (fun _ _ => not_armText_prefix_semicolon _ r)
            (fun _ _ => not_armText_prefix_semicolon _ s) (fun _ _ => trivial)
            (fun _ _ => trivial) harms
          exact ⟨rfl, (List.cons_eq_cons.mp hend).2⟩
      | scalar t => exact absurd h.symm (hdifferent value values t hb s _)
  | scalar t =>
    cases b with
    | literals values' =>
      cases values' with
      | nil => exact absurd rfl hb
      | cons value' values' => exact absurd h (hdifferent value' values' t ha r _)
    | scalar u =>
      obtain ⟨htype, -, hrest⟩ := identifier_append_cons_inj (TypeExpr.isIdentifier_text ha)
        (TypeExpr.isIdentifier_text hb) (by decide) (by decide) h
      exact ⟨congrArg AliasBody.scalar (TypeExpr.eq_of_text_eq
        (TypeExpr.Clear.unreserved ha) (TypeExpr.Clear.unreserved hb) htype), hrest⟩

/-! ## Declarations -/

/-- **A declaration that is clear**: it and its parent are named by identifiers, and what it
stands for or what its members are is clear. -/
def Declaration.Clear : Declaration → Prop
  | .typeAlias name body => isIdentifier name = true ∧ body.Clear
  | .interface name parent members =>
    isIdentifier name = true ∧ (∀ p ∈ parent, isIdentifier p = true)
      ∧ ∀ m ∈ members, m.type.Clear

/-- The text of an alias, and what follows it, in characters. -/
theorem Declaration.toList_text_typeAlias_append (indent name : String) (body : AliasBody)
    (rest : List Char) :
    ((Declaration.typeAlias name body).text indent).toList ++ rest
      = "export type ".toList ++ (name.toList ++ ' ' :: '=' :: ' ' ::
        (body.text.toList ++ ';' :: '\n' :: '\n' :: rest)) := by
  have hequals : " = ".toList = [' ', '=', ' '] := rfl
  have hend : ";\n\n".toList = [';', '\n', '\n'] := rfl
  show ("export type " ++ name ++ " = " ++ body.text ++ ";\n\n").toList ++ rest = _
  simp only [String.toList_append, hequals, hend, List.append_assoc, List.cons_append,
    List.nil_append]

/-- The text of an interface, and what follows it, in characters. -/
theorem Declaration.toList_text_interface_append (indent name : String)
    (parent : Option String) (members : List Member) (rest : List Char) :
    ((Declaration.interface name parent members).text indent).toList ++ rest
      = "export interface ".toList ++ (name.toList ++
        ((extendsClause parent).toList ++ ' ' :: '\x7b' :: '\n' ::
          ((members.flatMap fun m => (m.text indent).toList)
            ++ '\x7d' :: '\n' :: '\n' :: rest))) := by
  have hopen : " \x7b\n".toList = [' ', '\x7b', '\n'] := rfl
  have hclose : "\x7d\n\n".toList = ['\x7d', '\n', '\n'] := rfl
  show ("export interface " ++ name ++ extendsClause parent ++ " \x7b\n"
    ++ String.join (members.map (Member.text indent)) ++ "\x7d\n\n").toList ++ rest = _
  simp only [String.toList_append, String.toList_join, List.flatMap_map, hopen, hclose,
    List.append_assoc, List.cons_append, List.nil_append]

/-- The beginnings of an alias and of an interface differ in their eighth character. -/
theorem aliasLead_append_ne (r s : List Char) :
    "export type ".toList ++ r ≠ "export interface ".toList ++ s := by
  have halias : "export type ".toList
      = ['e', 'x', 'p', 'o', 'r', 't', ' ', 't', 'y', 'p', 'e', ' '] := rfl
  have hinterface : "export interface ".toList
      = ['e', 'x', 'p', 'o', 'r', 't', ' ', 'i', 'n', 't', 'e', 'r', 'f', 'a', 'c', 'e', ' '] :=
    rfl
  rw [halias, hinterface]
  simp

/-- **The clause of a parent is told from the name before it and the brace after it.** -/
theorem extendsClause_append_inj {a b : String} (ha : isIdentifier a = true)
    (hb : isIdentifier b = true) {p q : Option String} (hp : ∀ n ∈ p, isIdentifier n = true)
    (hq : ∀ n ∈ q, isIdentifier n = true) {r s : List Char}
    (h : a.toList ++ ((extendsClause p).toList ++ ' ' :: '\x7b' :: r)
      = b.toList ++ ((extendsClause q).toList ++ ' ' :: '\x7b' :: s)) :
    a = b ∧ p = q ∧ r = s := by
  have hsome : ∀ (n : String) (r : List Char), (extendsClause (some n)).toList ++ r
      = ' ' :: ("extends ".toList ++ (n.toList ++ r)) := by
    intro n r
    simp [extendsClause]
  cases p with
  | none =>
    cases q with
    | none =>
      obtain ⟨hname, -, hrest⟩ := identifier_append_cons_inj ha hb (by decide) (by decide) h
      exact ⟨hname, rfl, (List.cons_eq_cons.mp hrest).2⟩
    | some n =>
      rw [hsome] at h
      obtain ⟨-, -, hrest⟩ := identifier_append_cons_inj ha hb (by decide) (by decide) h
      exact absurd (List.cons_eq_cons.mp hrest).1 (by decide)
  | some m =>
    cases q with
    | none =>
      rw [hsome] at h
      obtain ⟨-, -, hrest⟩ := identifier_append_cons_inj ha hb (by decide) (by decide) h
      exact absurd (List.cons_eq_cons.mp hrest).1 (by decide)
    | some n =>
      rw [hsome, hsome] at h
      obtain ⟨hname, -, hclause⟩ := identifier_append_cons_inj ha hb (by decide) (by decide) h
      obtain ⟨hparent, -, hrest⟩ := identifier_append_cons_inj (hp m rfl) (hq n rfl) (by decide)
        (by decide) (List.append_cancel_left hclause)
      exact ⟨hname, congrArg some hparent, (List.cons_eq_cons.mp hrest).2⟩

/-- **The text of a declaration says what is declared**, whatever follows it. -/
theorem Declaration.prefixFree_text {indent : String} (hindent : IsIndent indent) :
    PrefixFree Declaration.Clear fun d => (d.text indent).toList := by
  have hdifferent : ∀ (name name' : String) (body : AliasBody) (parent : Option String)
      (members : List Member) (r s : List Char),
      ((Declaration.typeAlias name body).text indent).toList ++ r
        ≠ ((Declaration.interface name' parent members).text indent).toList ++ s := by
    intro name name' body parent members r s h
    rw [toList_text_typeAlias_append, toList_text_interface_append] at h
    exact aliasLead_append_ne _ _ h
  intro a b ha hb r s h
  cases a with
  | typeAlias name body =>
    cases b with
    | typeAlias name' body' =>
      change ((typeAlias name body).text indent).toList ++ r
        = ((typeAlias name' body').text indent).toList ++ s at h
      rw [toList_text_typeAlias_append, toList_text_typeAlias_append,
        List.append_cancel_left_eq] at h
      obtain ⟨hname, -, hrest⟩ :=
        identifier_append_cons_inj ha.1 hb.1 (by decide) (by decide) h
      obtain ⟨hbody, hend⟩ := AliasBody.text_append_inj ha.2 hb.2
        (List.cons_eq_cons.mp (List.cons_eq_cons.mp hrest).2).2
      exact ⟨congr (congrArg typeAlias hname) hbody,
        (List.cons_eq_cons.mp (List.cons_eq_cons.mp hend).2).2⟩
    | interface name' parent members => exact absurd h (hdifferent _ _ _ _ _ _ _)
  | interface name parent members =>
    cases b with
    | typeAlias name' body => exact absurd h.symm (hdifferent _ _ _ _ _ _ _)
    | interface name' parent' members' =>
      change ((interface name parent members).text indent).toList ++ r
        = ((interface name' parent' members').text indent).toList ++ s at h
      rw [toList_text_interface_append, toList_text_interface_append,
        List.append_cancel_left_eq] at h
      obtain ⟨hname, hparent, hrest⟩ :=
        extendsClause_append_inj ha.1 hb.1 ha.2.1 hb.2.1 h
      obtain ⟨hmembers, hend⟩ := (Member.prefixFree_text indent).flatMap
        (fun m _ => m.not_text_prefix_brace hindent _)
        (fun m _ => m.not_text_prefix_brace hindent _) ha.2.2 hb.2.2
        (List.cons_eq_cons.mp hrest).2
      exact ⟨congr (congr (congrArg interface hname) hparent) hmembers,
        (List.cons_eq_cons.mp (List.cons_eq_cons.mp (List.cons_eq_cons.mp hend).2).2).2⟩

/-- **Declarations that are written alike are the same.** -/
theorem eq_of_declarationsText_eq {indent : String} (hindent : IsIndent indent)
    {ds es : List Declaration} (hds : ∀ d ∈ ds, d.Clear) (hes : ∀ e ∈ es, e.Clear)
    (h : declarationsText indent ds = declarationsText indent es) : ds = es := by
  have htext : ∀ ds : List Declaration, (declarationsText indent ds).toList
      = (ds.flatMap fun d => (d.text indent).toList) ++ [] := by
    intro ds
    rw [declarationsText, String.toList_join, List.flatMap_map, List.append_nil]
  have hstop : ∀ d : Declaration, d.Clear → ¬ (d.text indent).toList <+: [] := by
    intro d _ hprefix
    have hnil := List.prefix_nil.mp hprefix
    cases d with
    | typeAlias name body =>
      have htext := Declaration.toList_text_typeAlias_append indent name body []
      rw [hnil] at htext
      cases htext
    | interface name parent members =>
      have htext := Declaration.toList_text_interface_append indent name parent members []
      rw [hnil] at htext
      cases htext
  have hchars := congrArg String.toList h
  rw [htext, htext] at hchars
  exact ((Declaration.prefixFree_text hindent).flatMap hstop hstop hds hes hchars).1

end SchemaTypings
