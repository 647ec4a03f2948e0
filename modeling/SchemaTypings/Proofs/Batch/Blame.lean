import SchemaTypings.Proofs.Batch.Alone
import SchemaTypings.Proofs.WiderLimits

/-!
# What a document fails with

A document that is not converted is to blame for it: it cannot be read, it passes a limit, it is not
well-formed, or it is no schema (`Error.OfDocument`). No other error comes of a document before its
declaration file is to be written (`ofDocument_of_typings`), and the texts of these errors are not
those of declaration files that cannot be written (`Error.OfDocument.text_ne`), so a report that
holds nothing but texts tells the ones from the others.
-/

namespace SchemaTypings

open Machine

/-- **An error that a document is to blame for.** -/
inductive Error.OfDocument (p : Path) : Error → Prop where
  /-- It cannot be read, or its bytes are no text. -/
  | unreadable (cause : SystemError) : OfDocument p (.resource (.readFile p cause))
  /-- It passes a limit. -/
  | limit (cause : LimitExceeded) : OfDocument p (.limit cause)
  /-- It is not well-formed. -/
  | markup (cause : Markup.Fault) : OfDocument p (.markup cause)
  /-- It is no schema. -/
  | structural (cause : Schema.Fault) : OfDocument p (.structural cause)

/-- **A document that failed before anything was written**, as the text of its error says. -/
def Failed.BeforeWriting (file : Failed) : Prop :=
  ∃ e : Error, e.OfDocument file.input ∧ file.error = e.text

/-- Texts that differ at a place within their first parts are different. -/
theorem append_ne_append {a b : String} (n : Nat) (ha : n < a.toList.length)
    (hb : n < b.toList.length) (hne : a.toList[n]? ≠ b.toList[n]?) (c d : String) :
    a ++ c ≠ b ++ d := by
  intro heq
  refine hne ?_
  have hleft : (a ++ c).toList[n]? = a.toList[n]? := by
    rw [String.toList_append, List.getElem?_append_left ha]
  have hright : (b ++ d).toList[n]? = b.toList[n]? := by
    rw [String.toList_append, List.getElem?_append_left hb]
  rw [← hleft, heq, hright]

/-- Kinds of errors are told apart by the first letters of their headings. -/
theorem ErrorKind.eq_of_getElem?_heading {a b : ErrorKind}
    (h : a.heading.toList[0]? = b.heading.toList[0]?) : a = b := by
  cases a <;> cases b <;> first | rfl | exact absurd h (by decide)

/-- **Errors of different kinds have different texts.** -/
theorem Error.text_ne_of_kind_ne {e f : Error} (h : e.kind ≠ f.kind) : e.text ≠ f.text := by
  have hlong : ∀ kind : ErrorKind, 0 < kind.heading.toList.length := by
    intro kind
    cases kind <;> decide
  exact append_ne_append 0 (hlong e.kind) (hlong f.kind)
    (fun heq => h (ErrorKind.eq_of_getElem?_heading heq)) _ _

/-- **What a document is to blame for is not told as a declaration file that cannot be written.** -/
theorem Error.OfDocument.text_ne {p : Path} {e : Error} (h : e.OfDocument p) (output : Path)
    (cause : SystemError) : e.text ≠ (Error.resource (.writeFile output cause)).text := by
  cases h with
  | unreadable other =>
    -- The heading is the same, and then the one was to be read and the other to be written.
    intro heq
    unfold text at heq
    dsimp only [kind, detail, ResourceError.text] at heq
    rw [String.append_right_inj, String.append_assoc, String.append_assoc, String.append_assoc,
      String.append_assoc] at heq
    exact append_ne_append 10 (by decide) (by decide) (by decide) _ _ heq
  | limit other => exact text_ne_of_kind_ne fun h => nomatch h
  | markup other => exact text_ne_of_kind_ne fun h => nomatch h
  | structural other => exact text_ne_of_kind_ne fun h => nomatch h

/-! ## What the steps of a run fail with -/

namespace Machine.Run

variable {α β : Type} {machine : Machine} {P : Error → Prop}

/-- **A run whose errors all have a property**, in whatever tree it begins. -/
def FailsOnlyWith (P : Error → Prop) (run : ExceptT Error machine.Run α) : Prop :=
  ∀ t e u, run.run.on t = (.error e, u) → P e

namespace FailsOnlyWith

theorem pure (a : α) : FailsOnlyWith P (Pure.pure a : ExceptT Error machine.Run α) :=
  fun _ _ _ h => nomatch congrArg Prod.fst h

theorem bind {run : ExceptT Error machine.Run α} {next : α → ExceptT Error machine.Run β}
    (h : FailsOnlyWith P run) (hnext : ∀ a, FailsOnlyWith P (next a)) :
    FailsOnlyWith P (run >>= next) := by
  intro t e u hrun
  rw [on_bindExcept] at hrun
  rcases hfirst : run.run.on t with ⟨_ | a, v⟩
  · rw [hfirst] at hrun
    have he := Except.error.inj (congrArg Prod.fst hrun)
    exact he ▸ h t _ v hfirst
  · rw [hfirst] at hrun
    exact hnext a v e u hrun

/-- A request fails as its refusals are worded. -/
theorem demand {refused : SystemError → Error} (h : ∀ cause, P (refused cause))
    (request : machine.Run (Except SystemError α)) :
    FailsOnlyWith P (demand refused request : ExceptT Error machine.Run α) := by
  intro t e u hrun
  rw [on_demand] at hrun
  cases hanswer : (request.on t).1 with
  | error cause =>
    rw [hanswer] at hrun
    exact Except.error.inj (congrArg Prod.fst hrun) ▸ h cause
  | ok a =>
    rw [hanswer] at hrun
    cases congrArg Prod.fst hrun

theorem settle {result : Except Error α} (h : ∀ e, result = .error e → P e) :
    FailsOnlyWith P (settle result : ExceptT Error machine.Run α) :=
  fun _ e _ hrun => h e (congrArg Prod.fst hrun)

/-- Reading a text fails as the refusals are worded, whether the file cannot be read or its bytes
are no text. -/
theorem readText {refused : SystemError → Error} (h : ∀ cause, P (refused cause)) (p : Path) :
    FailsOnlyWith P (readText refused p : ExceptT Error machine.Run String) := by
  refine .bind (.demand h _) fun bytes => ?_
  cases String.fromUTF8? bytes with
  | some text => exact .pure text
  | none =>
    have hthrow : ∀ e, (Except.error (refused .notText) : Except Error String) = .error e → P e :=
      fun e he => Except.error.inj he ▸ h .notText
    exact .settle hthrow

end FailsOnlyWith

end Machine.Run

/-- A limit refuses as a limit does. -/
theorem ofDocument_of_require (p : Path) {limits : Limits} {bound : Bound} {value : Nat} {e : Error}
    (h : limits.require bound value = .error e) : e.OfDocument p := by
  unfold Limits.require at h
  cases hcheck : limits.check bound value with
  | error cause =>
    rw [hcheck] at h
    exact Except.error.inj h ▸ .limit cause
  | ok _ =>
    rw [hcheck] at h
    cases h

/-- **A text that is not converted** is to blame for it. Its errors are those that wider limits
keep, and refusals. -/
theorem ofDocument_of_convert (p : Path) {options : OutputOptions} {limits : Limits} {text : String}
    {e : Error} (h : convert options limits text = .error e) : e.OfDocument p := by
  have hkept := keptBy_convert (fun bound => Nat.le_refl (limits.maximum bound)) options text
  rw [h] at hkept
  cases hkept with
  | markup cause => exact .markup cause
  | structural cause => exact .structural cause
  | refused cause => exact .limit cause

/-- **A document that is not converted is to blame for it.** -/
theorem ofDocument_of_typings {machine : Machine} {s : Settings} {t : FileTree} {p : Path}
    {e : Error} (h : machine.typings s t p = .error e) : e.OfDocument p := by
  have hconvert : Run.FailsOnlyWith (Error.OfDocument p)
      (convertFile s p : ExceptT Error machine.Run TypingsFile) := by
    refine .bind ?_ fun text => .settle fun e => ofDocument_of_convert p
    refine .bind (.demand .unreadable _) fun size => ?_
    refine .bind (.settle fun e => ofDocument_of_require p) fun _ => ?_
    refine .bind (.readText .unreadable p) fun text => ?_
    exact .bind (.settle fun e => ofDocument_of_require p) fun _ => .pure text
  exact hconvert t e t (by rw [convertFile_on, h])

end SchemaTypings
