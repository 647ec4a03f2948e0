import SchemaTypings.Proofs.Command.Agreement
import SchemaTypings.Proofs.Settings.Assembly

/-!
# Settings in layers

Defaults, settings file, command line: each layer overrides the ones before it setting by setting
(`settings_in_layers`). A settings file that writes an assignment gives the default settings with
those of the assignment over them, however the groups are written and whatever else stands in the
file. The command line is a layer of the same kind, with four settings that it can give.

That a group is filled member by member is what makes this so: a group that is given in part leaves
the defaults of its other members (`Group.member_eq`), at all three levels in the same way.
-/

namespace SchemaTypings

open Toml FileTree Machine

variable {a : Assignment}

/-! ## Reading settings from a table -/

/-- **A member of a group** has the value that is given, or else its default. -/
theorem Group.member_eq {α : Type} {g : Group} {place : Nat} {name : String}
    {read : Value → Option α} {default : α} {write : α → Value} {given : Option α}
    (hgiven : g place name = given.map write) (hread : ∀ x, read (write x) = some x) :
    g.member place name read default = some (given.getD default) := by
  rw [Group.member, hgiven]
  cases given with
  | none => rfl
  | some x => exact hread x

section Read

theorem ofValue?_label (policy : NamingPolicy) :
    NamingPolicy.ofValue? (.text policy.label) = some policy :=
  NamingPolicy.ofLabel?_label policy

theorem text?_text (s : String) : Value.text? (.text s) = some s :=
  rfl

theorem boolean?_boolean (truth : Bool) : Value.boolean? (.boolean truth) = some truth :=
  rfl

theorem size?_integer (n : Nat) : Value.size? (.integer n) = some n :=
  rfl

theorem ofValue?_path (p : Path) : Path.ofValue? (.text p.text) = some p :=
  rfl

variable {members : List (String × Value)}

/-- The output options of a group that says them. -/
theorem OutputOptions.ofValue?_eq
    (h : ∀ k : Setting, ∀ name, k.path = ["emit", name] → members.lookup name = a.value? k) :
    OutputOptions.ofValue? (.table members) = some (a.overlay {}).output := by
  unfold OutputOptions.ofValue?
  dsimp only [Value.group?, Option.bind_eq_bind, Option.bind_some]
  rw [Group.member_eq (h .naming "naming" rfl) ofValue?_label,
    Group.member_eq (h .indent "indent" rfl) text?_text,
    Group.member_eq (h .header "header" rfl) boolean?_boolean]
  rfl

/-- The limits of a group that says them. -/
theorem Limits.ofValue?_eq
    (h : ∀ k : Setting, ∀ name, k.path = ["limits", name] → members.lookup name = a.value? k) :
    Limits.ofValue? (.table members) = some (a.overlay {}).limits := by
  unfold Limits.ofValue?
  dsimp only [Value.group?, Option.bind_eq_bind, Option.bind_some]
  rw [Group.member_eq (h .maxDepth "max_xml_depth" rfl) size?_integer,
    Group.member_eq (h .maxSize "max_xml_size" rfl) size?_integer,
    Group.member_eq (h .maxAttributes "max_attributes" rfl) size?_integer,
    Group.member_eq (h .maxDeclarations "max_declarations" rfl) size?_integer]
  rfl

/-- **A group that is given in part**, or not at all, leaves the defaults of what is not given. -/
theorem GroupSays.member_eq {α : Type} {g : String} (group : Group) {place : Nat}
    {read : Value → Option α} {default given : α} (h : GroupSays g a (group place g))
    (hempty : read (.table []) = some default)
    (hread : ∀ members : List (String × Value),
      (∀ k : Setting, ∀ name, k.path = [g, name] → members.lookup name = a.value? k) →
      read (.table members) = some given) :
    group.member place g read default = some given := by
  unfold Group.member
  generalize group place g = value? at h
  cases h with
  | absent h => exact hempty.symm.trans (hread [] fun k name hpath => (h k name hpath).symm)
  | members h => exact hread _ h

/-- **The settings of a table that says them.** -/
theorem Settings.ofValue?_eq
    (hsettings : ∀ k : Setting, ∀ name, k.path = [name] → members.lookup name = a.value? k)
    (hgroups : ∀ g ∈ Setting.groups, GroupSays g a (members.lookup g)) :
    Settings.ofValue? (.table members) = some (a.overlay {}) := by
  have houtput : Group.member (fun _ name => members.lookup name) 4 "emit" OutputOptions.ofValue? {}
      = some (a.overlay {}).output :=
    GroupSays.member_eq (fun _ name => members.lookup name) (hgroups "emit" (by decide)) rfl
      fun _ => OutputOptions.ofValue?_eq
  have hlimits : Group.member (fun _ name => members.lookup name) 5 "limits" Limits.ofValue? {}
      = some (a.overlay {}).limits :=
    GroupSays.member_eq (fun _ name => members.lookup name) (hgroups "limits" (by decide)) rfl
      fun _ => Limits.ofValue?_eq
  unfold Settings.ofValue?
  dsimp only [Value.group?, Option.bind_eq_bind, Option.bind_some]
  rw [Group.member_eq (hsettings .inputFolder "input_dir" rfl) ofValue?_path,
    Group.member_eq (hsettings .outputFolder "output_dir" rfl) ofValue?_path,
    Group.member_eq (hsettings .inputExtension "input_extension" rfl) text?_text,
    Group.member_eq (hsettings .outputExtension "output_extension" rfl) text?_text, houtput,
    hlimits]
  rfl

end Read

/-- **A settings file that writes an assignment** gives the default settings with those of the
assignment over them. -/
theorem Settings.ofToml_eq {text : String} {statements : List Statement}
    (hdocument : DocumentText text statements) (hwrites : Writes statements a) :
    Settings.ofToml text = .ok (a.overlay {}) := by
  obtain ⟨es, hes, hsettings, hgroups⟩ := hwrites.exists_says
  have hparse : parse? text = some (.table (finishEntries es)) := by
    rw [hdocument.parse?_eq, hes]
    rfl
  rw [Settings.ofToml, readToml, hparse]
  dsimp only
  rw [Settings.ofValue?_eq hsettings hgroups]

namespace Command

/-! ## The command line -/

/-- The settings that a command line gives. -/
def Given.assignment (g : Given) : Assignment
  | .inputFolder => g.operand
  | .outputFolder => g.output
  | .naming => g.naming
  | .header => if g.noHeader then some false else none
  | _ => none

variable {machine : Machine} {t : FileTree} {g : Given} {s : Settings}

/-- **The command line is a layer** over the settings that hold without it. -/
theorem Given.overlay_assignment (g : Given) (s : Settings) :
    withFolders g { s with output := g.overOutput s.output } = g.assignment.overlay s := by
  have hheader : (s.output.header && !g.noHeader)
      = (if g.noHeader then some false else none).getD s.output.header := by
    cases g.noHeader
    · exact Bool.and_true _
    · exact Bool.and_false _
  unfold withFolders Given.overOutput
  rw [hheader]
  rfl

/-- The settings that a file gives, with the output options of the command line over them. -/
theorem settingsIn_of_ofToml {c : Path} {text : String} (hconfig : g.config = some c)
    (hrefusal : machine.refusal .bytes c = none) (hfind : t.find c = .ok (.file text.toUTF8))
    (htext : Settings.ofToml text = .ok s) :
    settingsIn machine g t = .ok { s with output := g.overOutput s.output } := by
  unfold settingsIn baseSettings
  rw [hconfig]
  dsimp only
  rw [Run.on_bindExcept, settingsFile, Run.on_bindExcept, readText_on machine hrefusal hfind]
  dsimp only
  rw [htext]
  rfl

/-- What comes of converting a folder. -/
def convertOutcome (g : Given) : Except Error Report → Outcome
  | .ok report => { exit := if report.allConverted then 0 else 1, stdout := reportText g report }
  | .error e => .failure e

/-- **A command line that converts a folder** does so with its settings. -/
theorem run_of_convertSettings_on {words : List String}
    (hrequest : request? words = some (.convert g))
    (hsettings : (convertSettings g : ExceptT Error machine.Run Settings).run.on t = (.ok s, t)) :
    (run words : machine.Run Outcome).on t
      = Prod.map (convertOutcome g) id
          ((convertFolder s : ExceptT Error machine.Run Report).run.on t) := by
  obtain ⟨base, hbase, rfl⟩ := exists_settingsIn_of_convertSettings_on hsettings
  unfold run
  rw [hrequest]
  show Run.on (runConvert g : machine.Run Outcome) t = _
  rw [runConvert_on, hbase]
  dsimp only
  rcases (convertFolder (withFolders g base) : ExceptT Error machine.Run Report).run.on t with
    ⟨_ | _, u⟩
  · rfl
  · rfl

/-- **Settings come in layers, and each overrides setting by setting.** Whatever settings a file
writes, and however it does so, it gives those over the defaults and no others. A conversion with
this file runs with the settings of the command line over that: for every setting, what the command
line gives, or else what the file gives, or else the default. -/
theorem settings_in_layers {text : String} {statements : List Statement}
    (hdocument : DocumentText text statements) (hwrites : Writes statements a) :
    (∃ s, Settings.ofToml text = .ok s ∧ ∀ k : Setting, k.get s = (a k).getD (k.get {}))
      ∧ ∀ (machine : Machine) (t : FileTree) (g : Given) (c : Path), g.config = some c →
        machine.refusal .bytes c = none → t.find c = .ok (.file text.toUTF8) →
        ∃ s, (convertSettings g : ExceptT Error machine.Run Settings).run.on t = (.ok s, t)
          ∧ (∀ k : Setting, k.get s = ((g.assignment k).or (a k)).getD (k.get {}))
          ∧ ∀ words, request? words = some (.convert g) →
            (run words : machine.Run Outcome).on t
              = Prod.map (convertOutcome g) id
                  ((convertFolder s : ExceptT Error machine.Run Report).run.on t) := by
  have htext := Settings.ofToml_eq hdocument hwrites
  refine ⟨⟨a.overlay {}, htext, a.get_overlay {}⟩, fun machine t g c hconfig hrefusal hfind => ?_⟩
  have hsettings : (convertSettings g : ExceptT Error machine.Run Settings).run.on t
      = (.ok (g.assignment.overlay (a.overlay {})), t) := by
    rw [convertSettings_on, settingsIn_of_ofToml hconfig hrefusal hfind htext]
    dsimp only [Except.map]
    rw [Given.overlay_assignment]
  refine ⟨_, hsettings, fun k => ?_,
    fun words hrequest => run_of_convertSettings_on hrequest hsettings⟩
  rw [Assignment.get_overlay, Assignment.get_overlay]
  cases g.assignment k <;> rfl

/-! ## A settings file for a build -/

/-- A settings file that gives three settings in three ways, with a key among them that is no
setting. -/
def buildText : String :=
  "# build\ninput_dir = \"in\\u002Fput\"\nemit.naming = 'capitalize'\n"
    ++ "[limits]\nextra = true\nmax_xml_size = 9_000"

/-- Its statements. -/
def buildStatements : List Statement :=
  [.pair ["input_dir"] (.text "in/put"), .pair ["emit", "naming"] (.text "capitalize"),
    .table ["limits"], .pair ["extra"] (.boolean true), .pair ["max_xml_size"] (.integer 9000)]

/-- The settings that it gives. -/
def buildAssignment : Assignment
  | .inputFolder => some ⟨"in/put"⟩
  | .naming => some .capitalize
  | .maxSize => some 9000
  | _ => none

theorem writes_build : Writes buildStatements buildAssignment where
  spoken k := by cases k <;> rfl
  keys := List.forall_mem_cons.mpr
    ⟨.inl (by decide), List.forall_mem_singleton.mpr (.inl (by decide))⟩
  keys_below := List.forall_mem_cons.mpr
    ⟨.inr (by decide), List.forall_mem_singleton.mpr (.inl (by decide))⟩
  tables header hmem := by
    obtain rfl : header = ["limits"] := by simpa [buildStatements] using hmem
    exact .inr ⟨"limits", by decide, rfl⟩
  elements header hmem := by simp [buildStatements] at hmem
  one_way g _ pair hpair name heq _ := by
    have hkeys : ∀ key ∈ (leadingPairs buildStatements).map Prod.fst,
        key.length = 2 → key.head? = some "emit" := by decide
    have hfirst := hkeys pair.1 (List.mem_map_of_mem hpair) (by rw [heq]; rfl)
    rw [heq] at hfirst
    obtain rfl := Option.some.inj hfirst
    exact ⟨by simp [buildStatements], by simp [buildStatements, leadingPairs]⟩
  others := rfl

/-- The last line, below the header of its group. -/
theorem statementsText_size :
    StatementsText "max_xml_size = 9_000".toList [.pair ["max_xml_size"] (.integer 9000)] := by
  have hdigits : Grouped "9_000".toList (Nat.toDigits 10 9000) :=
    .group (by decide) (.digit (by decide) (.digit (by decide) (.last (by decide))))
  have hvalue : ValueText maxNesting "9_000".toList (.integer (9000 : Nat)) [] :=
    .simple (.decimal (.mk (.inl rfl) hdigits (by decide) ⟨[], .refl nofun, nofun⟩))
  have hend : Solid [] := ⟨nofun, fun _ h => h.elim nofun nofun, nofun⟩
  exact .more (filler_self (by decide) _)
    (.pair (.mk (keyText_bare "max_xml_size".toList (by decide) _)
      (spaces_one (by decide) _) hvalue))
    (.plain (.refl nofun) (.inr ⟨rfl, rfl⟩)) (.done (.done hend))

/-- The lines from the header of the group on. -/
def limitsLines : List Char :=
  "[limits]\nextra = true\nmax_xml_size = 9_000".toList

theorem statementsText_limits : StatementsText limitsLines
    [.table ["limits"], .pair ["extra"] (.boolean true),
      .pair ["max_xml_size"] (.integer 9000)] := by
  have hheader : KeyText "limits]\nextra = true\nmax_xml_size = 9_000".toList ["limits"]
      "]\nextra = true\nmax_xml_size = 9_000".toList :=
    ⟨⟨_, spaces_self (by decide) _, .last (@KeyPart.bare "limits".toList _ (by decide) (by decide)
      (head?_eq_false (by decide) _)) (spaces_self (by decide) _) (by decide)⟩, by decide⟩
  have hvalue : ValueText maxNesting "true\nmax_xml_size = 9_000".toList (.boolean true)
      "\nmax_xml_size = 9_000".toList :=
    .simple (.true (follows_newline _))
  have hextra : StatementsText "extra = true\nmax_xml_size = 9_000".toList
      [.pair ["extra"] (.boolean true), .pair ["max_xml_size"] (.integer 9000)] :=
    .more (filler_self (by decide) _)
      (.pair (.mk (keyText_bare "extra".toList (by decide) _) (spaces_one (by decide) _) hvalue))
      (lineEnd_newline _) statementsText_size
  exact .more (filler_self (by decide) _) (.table hheader) (lineEnd_newline _) hextra

/-- The lines from the dotted key on. -/
def namingLines : List Char :=
  "emit.naming = 'capitalize'\n".toList ++ limitsLines

theorem statementsText_naming : StatementsText namingLines
    [.pair ["emit", "naming"] (.text "capitalize"), .table ["limits"],
      .pair ["extra"] (.boolean true), .pair ["max_xml_size"] (.integer 9000)] := by
  have hkey : KeyText namingLines ["emit", "naming"] ("= 'capitalize'\n".toList ++ limitsLines) :=
    ⟨⟨_, spaces_self (by decide) _, .more (@KeyPart.bare "emit".toList _ (by decide) (by decide)
        (head?_eq_false (by decide) _))
      (spaces_self (by decide) _) (spaces_self (by decide) _)
      (.last (keyPart_bare "naming".toList (by decide) _) (spaces_one (by decide) _) (by decide))⟩,
      by decide⟩
  have hvalue : ValueText maxNesting ("'capitalize'\n".toList ++ limitsLines) (.text "capitalize")
      ('\n' :: limitsLines) :=
    .simple (.text (.literal (@LiteralBody.mk "capitalize".toList _ (by decide)) (by decide)))
  exact .more (filler_self (by decide) _) (.pair (.mk hkey (spaces_one (by decide) _) hvalue))
    (lineEnd_newline _) statementsText_limits

theorem documentText_build : DocumentText buildText buildStatements := by
  have hbody : BasicBody ("in\\u002Fput\"\n".toList ++ namingLines) "in/put".toList
      ('\n' :: namingLines) :=
    .plain (by decide) (by decide) (by decide) (.plain (by decide) (by decide) (by decide)
      (.escape (@EscapeText.short "002F".toList _ _ (by decide) (by decide))
        (.plain (by decide) (by decide) (by decide) (.plain (by decide) (by decide) (by decide)
          (.plain (by decide) (by decide) (by decide) .close)))))
  have hvalue : ValueText maxNesting ("\"in\\u002Fput\"\n".toList ++ namingLines) (.text "in/put")
      ('\n' :: namingLines) := .simple (.text (.basic hbody (by decide)))
  have hcomment : Filler buildText.toList
      ("input_dir = \"in\\u002Fput\"\n".toList ++ namingLines) :=
    @Filler.comment " build".toList _ _ _ (by decide) (.inl rfl) (filler_self (by decide) _)
  exact ⟨_, .inl rfl, .more hcomment
    (.pair (.mk (keyText_bare "input_dir".toList (by decide) _) (spaces_one (by decide) _) hvalue))
    (lineEnd_newline _) statementsText_naming⟩

/-- The files of the build. -/
def buildTree : FileTree :=
  .folder [("tool.toml", .file buildText.toUTF8)]

/-- What the command line of the build gives. -/
def buildGiven : Given where
  output := some ⟨"types"⟩
  config := some ⟨"tool.toml"⟩
  noHeader := true

/-- The settings of the build: from the file, with those of the command line over them. -/
def buildSettings : Settings where
  inputFolder := ⟨"in/put"⟩
  outputFolder := ⟨"types"⟩
  output := { naming := .capitalize, header := false }
  limits := { maxSize := 9000 }

/-- The settings of the file are those that it writes. With a command line over them that gives two
others, the build runs with all five, and else with the defaults. -/
theorem settings_in_layers_build :
    Settings.ofToml buildText = .ok (buildAssignment.overlay {})
      ∧ (convertSettings buildGiven : ExceptT Error plain.Run Settings).run.on buildTree
        = (.ok buildSettings, buildTree)
      ∧ (run ["convert", "-o", "types", "--no-header", "--config=tool.toml"]
          : plain.Run Outcome).on buildTree
        = Prod.map (convertOutcome buildGiven) id
            ((convertFolder buildSettings : ExceptT Error plain.Run Report).run.on buildTree) := by
  obtain ⟨⟨fileSettings, hfile, hget⟩, hlayers⟩ :=
    settings_in_layers documentText_build writes_build
  obtain ⟨s, hsettings, hall, hrun⟩ := hlayers plain buildTree buildGiven ⟨"tool.toml"⟩ rfl rfl rfl
  obtain rfl : fileSettings = buildAssignment.overlay {} := Setting.ext_get fun k => by
    rw [hget, Assignment.get_overlay]
  obtain rfl : s = buildSettings := Setting.ext_get fun k => by
    rw [hall]
    cases k <;> rfl
  exact ⟨hfile, hsettings, hrun _ (by decide)⟩

end Command

end SchemaTypings
