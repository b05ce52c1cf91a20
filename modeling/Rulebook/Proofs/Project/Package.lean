import Rulebook.Proofs.Manifest.Parsed
import Rulebook.Proofs.Project.Gained
import Rulebook.Proofs.Project.History

/-!
# The two readings of `package.json`

`package.json` lists packages and has fields, and both are kept apart: one finding holds the
packages that it listed when they were first asked for, the other the fields that it had when one
of them was first asked for. Each finding is read once, and all answers that rest on it are those of
that reading. Answers of both kinds are those of one state of the file just if the same packages are
listed in both readings (`Situation.package_answers_of_two_readings`).
-/

namespace Rulebook

open Condition (Failure)

/-! ## What the fields list -/

namespace Manifest

/-- The tables of `package.json` that list packages. -/
def npmTables : List String :=
  ["dependencies", "devDependencies", "peerDependencies", "optionalDependencies"]

/-- The packages that fields of `package.json` list. -/
def listed (es : Entries) : Dependencies := addTables .npm .empty (fields es npmTables)

theorem npm_eq_map (v : View) (root : Path) :
    npm .standard v root = (packageFields v root).map listed := by
  unfold npm packageFields
  cases hfound : parsed? v (npmFile root) (jsonObject .standard (npmFile root)) with
  | error e => rfl
  | ok found =>
    have hes := isTextual_of_parsed? (fun _ _ => isTextual_of_jsonObject) hfound
    have hmerge := mergeTables_of_isTextual (isTextual_fields hes npmTables) .npm .empty
    exact congrArg ofFault hmerge

/-- What is listed is a matter of the fields of these names. -/
theorem listed_congr {es es' : Entries} (h : ∀ name ∈ npmTables, es.field? name = es'.field? name) :
    listed es = listed es' := by
  have hfields : fields es npmTables = fields es' npmTables :=
    List.map_congr_left fun name hname => by rw [h name hname]
  rw [listed, hfields, listed]

theorem contains_addTable {e : Ecosystem} {name : String} (d : Dependencies) (table : Value) :
    (addTable e d table).contains name = true ↔ d.contains name = true ∨
      ∃ es, table = .map es ∧ ∃ entry ∈ es, name = e.normalName entry.1.text := by
  cases table with
  | map es =>
    have hstep (d : Dependencies) (entry : Value × Value) :
        (d.insert (e.normalName entry.1.text) (versionOf entry.2)).contains name = true ↔
          d.contains name = true ∨ name = e.normalName entry.1.text :=
      Dependencies.contains_insert_iff
    refine (Dependencies.contains_foldl hstep d es).trans ?_
    simp
  | _ => simp [addTable]

/-- The keys of a table are listed. -/
theorem contains_listed {es table : Entries} {name : String} {entry : Value × Value}
    (hname : name ∈ npmTables) (htable : es.field? name = some (.map table))
    (hentry : entry ∈ table) :
    (listed es).contains (Ecosystem.npm.normalName entry.1.text) = true :=
  (Dependencies.contains_foldl contains_addTable .empty _).mpr <| .inr
    ⟨.map table, List.mem_map.mpr ⟨name, hname, by rw [htable]; rfl⟩, table, rfl, entry, hentry,
      rfl⟩

theorem packageFields_congr {v w : View} {root : Path}
    (h : v.readText (npmFile root) = w.readText (npmFile root)) :
    packageFields v root = packageFields w root := by
  unfold packageFields parsed? text?
  rw [h]

end Manifest

/-- A key without dots is the whole of its path. -/
theorem Entries.answer_of_dottedParts {es : Entries} {name : String}
    (h : dottedParts name = [name]) :
    es.answer name = .ok ⟨(es.field? name).isSome, es.field? name⟩ := by
  have hresolve : (Value.map es).resolve name = .ok (es.field? name) := by
    unfold Value.resolve
    cases hfield : es.field? name with
    | some w => simp only [hfield]
    | none =>
      simp only [hfield, h]
      show (((Value.map es).part? name) >>= _) = _
      simp only [Value.part?, hfield]
      rfl
  rw [answer, hresolve]
  rfl

/-! ## Lookups of packages and of fields -/

namespace Identifier

def npm (name : String) : Identifier := ⟨.package .npm, name⟩

def field (path : String) : Identifier := ⟨.pkg, path⟩

/-- Whether the answer is read off `package.json`. -/
def IsPackage (i : Identifier) : Prop := i.space = .package .npm ∨ i.space = .pkg

theorem IsPackage.cases {i : Identifier} (h : i.IsPackage) :
    (∃ name, i = npm name) ∨ ∃ path, i = field path := by
  obtain ⟨space, name⟩ := i
  rcases h with ⟨⟨⟩⟩ | ⟨⟨⟩⟩
  · exact .inl ⟨name, rfl⟩
  · exact .inr ⟨name, rfl⟩

end Identifier

open Identifier (npm field)

namespace Project

variable {p : Project} {v w : View}

/-- What an identifier stands for where nothing has been found yet. -/
def answer (p : Project) (v : View) (i : Identifier) : Except Failure Answer :=
  (Question.identifier i).fresh p v

theorem answer_npm (name : String) : p.answer v (npm name) =
    (Manifest.packageFields v p.root).map fun es =>
      ⟨(Manifest.listed es).contains (Ecosystem.npm.normalName name), none⟩ := by
  have hload : (p.dependencies v .npm .empty).1 =
      (Manifest.packageFields v p.root).map Manifest.listed :=
    (Finding.fresh_dependencies .npm).trans (Manifest.npm_eq_map v p.root)
  show (p.lookup v (npm name) .empty).1 = _
  rw [npm, p.lookup_package .npm name v, Inquiry.fst_bind_ofExcept, hload]
  cases Manifest.packageFields v p.root <;> rfl

theorem answer_field (path : String) :
    p.answer v (field path) = Manifest.packageFields v p.root >>= fun es => es.answer path := by
  show (p.lookup v (field path) .empty).1 = _
  rw [field, p.lookup_pkg path v, Inquiry.fst_bind_ofExcept, ← Finding.fresh_package]
  rfl

theorem answer_congr {i : Identifier} (hi : i.IsPackage)
    (h : v.readText (Manifest.npmFile p.root) = w.readText (Manifest.npmFile p.root)) :
    p.answer v i = p.answer w i := by
  rcases hi.cases with ⟨name, rfl⟩ | ⟨path, rfl⟩
  · rw [answer_npm, answer_npm, Manifest.packageFields_congr h]
  · rw [answer_field, answer_field, Manifest.packageFields_congr h]

/-- Where all fields are the same, so are the packages that are listed. -/
theorem answer_npm_of_fields {es : Entries} (hload : Manifest.packageFields v p.root = .ok es)
    (h : ∀ path, p.answer w (field path) = p.answer v (field path)) (name : String) :
    p.answer w (npm name) = p.answer v (npm name) := by
  have hanswer (path : String) :
      (Manifest.packageFields w p.root >>= fun es => es.answer path) = es.answer path := by
    rw [← answer_field, h path, answer_field, hload]
    rfl
  have hdotless : ∀ name ∈ Manifest.npmTables, dottedParts name = [name] := by decide
  rw [answer_npm, answer_npm, hload]
  cases hw : Manifest.packageFields w p.root with
  | error e =>
    have hfirst := hanswer "dependencies"
    rw [hw, Entries.answer_of_dottedParts (hdotless _ List.mem_cons_self)] at hfirst
    cases hfirst
  | ok es' =>
    have hfields : ∀ name ∈ Manifest.npmTables, es'.field? name = es.field? name := by
      intro name hname
      have hdotless := hdotless name hname
      have heq := hanswer name
      rw [hw, Entries.answer_of_dottedParts hdotless] at heq
      have heq := (Entries.answer_of_dottedParts hdotless).symm.trans heq
      exact congrArg Answer.value (Except.ok.inj heq)
    have hlisted := Manifest.listed_congr hfields
    show Except.ok (Answer.mk ((Manifest.listed es').contains _) none) = _
    rw [hlisted]
    rfl

end Project

/-! ## Answers of a history -/

/-- The file is written, or asked for a package or a field. -/
def Event.IsAboutPackage (p : Project) : Event → Prop
  | .write l (.file _) => l = (Manifest.npmFile p.root).parts
  | .call (.ask (.identifier i)) => i.IsPackage
  | _ => False

namespace Situation

variable {p : Project} {v : View} {h : List Event} {q : Question}

/-- The question was asked in the history, and answered so. -/
def Answered (p : Project) (v : View) (h : List Event) (q : Question) (a : q.Answer) : Prop :=
  ∃ before after, h = before ++ .call (.ask q) :: after ∧
    ((start v).after p before).reply p (.ask q) = .ok a

/-- One state of the files explains all that was answered about `package.json`. -/
def OneReading (p : Project) (v : View) (h : List Event) : Prop :=
  ∃ w, ∀ i a, i.IsPackage → Answered p v h (.identifier i) a → p.answer w i = .ok a

theorem after_append (s : Situation) (h h' : List Event) :
    s.after p (h ++ h') = (s.after p h).after p h' := List.foldl_append

/-- What was answered is still answered so. -/
theorem Answered.reply {a : q.Answer} (ha : Answered p v h q a) :
    ((start v).after p h).reply p (.ask q) = .ok a := by
  obtain ⟨before, after, rfl, hreply⟩ := ha
  rw [after_append]
  exact reply_after_of_reply (consistent_after_start v before) hreply after

/-- A question that was answered rests on a finding that was made. -/
theorem Answered.firstFound {a : q.Answer} {i : Finding} (hi : q.finding? = some i)
    (ha : Answered p v h q a) : ((start v).firstFound p i h).isSome = true := by
  have hholds : ((start v).after p h).findings.holds i = true := by
    obtain ⟨before, after, rfl, hreply⟩ := ha
    have hs := consistent_after_start (p := p) v before
    have hask : q.ask p _ ((start v).after p before).findings = (.ok a, _) := Prod.ext hreply rfl
    rw [after_append]
    have hnext : (((start v).after p before).next p (.call (.ask q))).findings.holds i = true :=
      Question.holds_of_ask hi hask
    exact (holds_after (consistent_next hs _) after i).trans (by rw [hnext]; rfl)
  rwa [holds_after (consistent_start p v), start, Findings.holds_empty, Bool.false_or] at hholds

/-- What is found is not read again, whatever the files become. -/
theorem reply_of_found {i : Finding} {w : View} (hi : q.finding? = some i)
    (hw : (start v).firstFound p i h = some w) (now : View) :
    (Situation.mk now ((start v).after p h).findings).reply p (.ask q) = q.fresh p w := by
  let f := ((start v).after p h).findings
  let seen (j : Finding) : View := if f.holds j then (start v).viewOf p h j else now
  have hs : Consistent p now seen f :=
    ⟨(consistent_after_start v h).found.congr fun j hj => (if_pos hj).symm,
      fun j hj => if_neg (by simp [hj])⟩
  have hholds : f.holds i = true := by
    rw [holds_after (consistent_start p v), hw]
    exact Bool.or_true _
  rw [reply_eq (s := ⟨now, f⟩) hs]
  show q.fresh p (q.viewOf now seen) = _
  rw [Question.viewOf, hi]
  show q.fresh p (if f.holds i then _ else now) = _
  rw [if_pos hholds, viewOf, hw]
  rfl

theorem reply_of_firstFound {i : Finding} {w : View} (hi : q.finding? = some i)
    (hw : (start v).firstFound p i h = some w) :
    ((start v).after p h).reply p (.ask q) = q.fresh p w :=
  reply_of_found hi hw ((start v).after p h).view

section Package

variable {w w₁ w₂ : View}

theorem reply_npm (hw : (start v).firstFound p (.dependencies .npm) h = some w) (name : String) :
    ((start v).after p h).reply p (.ask (.identifier (npm name))) = p.answer w (npm name) :=
  reply_of_firstFound rfl hw

theorem reply_field (hw : (start v).firstFound p .package h = some w) (path : String) :
    ((start v).after p h).reply p (.ask (.identifier (field path))) = p.answer w (field path) :=
  reply_of_firstFound rfl hw

/-- One state of the files answers all lookups as they are answered now. -/
def ExplainedBy (p : Project) (s : Situation) (w : View) : Prop :=
  ∀ i : Identifier, i.IsPackage → s.reply p (.ask (.identifier i)) = p.answer w i

theorem ExplainedBy.oneReading (hw : ExplainedBy p ((start v).after p h) w) : OneReading p v h :=
  ⟨w, fun i _ hi ha => (hw i hi).symm.trans ha.reply⟩

/-- The packages listed for the fields have to be those that were listed for the packages. -/
theorem exists_explainedBy_iff (h₁ : (start v).firstFound p (.dependencies .npm) h = some w₁)
    (h₂ : (start v).firstFound p .package h = some w₂) :
    (∃ w, ExplainedBy p ((start v).after p h) w) ↔
      ∀ name, p.answer w₁ (npm name) = p.answer w₂ (npm name) := by
  constructor
  · rintro ⟨w, hw⟩ name
    obtain ⟨es, hes⟩ := load_of_firstFound h₂
    rw [Finding.fresh_package] at hes
    have hfields (path : String) : p.answer w (field path) = p.answer w₂ (field path) :=
      (hw (field path) (.inr rfl)).symm.trans (reply_field h₂ path)
    calc p.answer w₁ (npm name)
        = ((start v).after p h).reply p (.ask (.identifier (npm name))) := (reply_npm h₁ name).symm
      _ = p.answer w (npm name) := hw (npm name) (.inl rfl)
      _ = p.answer w₂ (npm name) := Project.answer_npm_of_fields hes hfields name
  · intro hsame
    refine ⟨w₂, fun i hi => ?_⟩
    rcases hi.cases with ⟨name, rfl⟩ | ⟨path, rfl⟩
    · rw [reply_npm h₁, hsame]
    · exact reply_field h₂ path

/-- Where only one of the two was read, it explains all that was answered. -/
theorem oneReading_of_firstFound_eq_none
    (hnone : (start v).firstFound p (.dependencies .npm) h = none ∨
      (start v).firstFound p .package h = none) : OneReading p v h := by
  have hread {i : Finding} {j : Identifier} {a : Answer}
      (hi : (Question.identifier j).finding? = some i)
      (ha : Answered p v h (.identifier j) a) :
      p.answer (((start v).firstFound p i h).getD v) j = .ok a := by
    obtain ⟨w, hw⟩ := Option.isSome_iff_exists.mp (ha.firstFound hi)
    rw [hw]
    exact (reply_of_firstFound hi hw).symm.trans ha.reply
  rcases hnone with hnone | hnone
  · refine ⟨((start v).firstFound p .package h).getD v, fun j a hj ha => ?_⟩
    rcases hj.cases with ⟨name, rfl⟩ | ⟨path, rfl⟩
    · have hsome := ha.firstFound (i := .dependencies .npm) rfl
      rw [hnone] at hsome
      cases hsome
    · exact hread rfl ha
  · refine ⟨((start v).firstFound p (.dependencies .npm) h).getD v, fun j a hj ha => ?_⟩
    rcases hj.cases with ⟨name, rfl⟩ | ⟨path, rfl⟩
    · exact hread rfl ha
    · have hsome := ha.firstFound (i := .package) rfl
      rw [hnone] at hsome
      cases hsome

end Package

/-- What was answered rests on one reading of the finding behind it, which is not read again: the
answer stays, whatever the files become. So all answers about listed packages are those of one state
of `package.json`, and all answers about its fields those of one state too. Where both were read,
one state explains all lookups of both kinds just if the same packages are listed in the two, as
they are if the file was the same. Where one alone was read, it explains all that was answered. -/
theorem package_answers_of_two_readings (p : Project) (v : View) (h : List Event) :
    (∀ q i a, q.finding? = some i → Answered p v h q a →
      ∃ w, (start v).firstFound p i h = some w ∧ q.fresh p w = .ok a ∧
        ∀ now, (Situation.mk now ((start v).after p h).findings).reply p (.ask q) = .ok a) ∧
    (∀ w₁ w₂, (start v).firstFound p (.dependencies .npm) h = some w₁ →
      (start v).firstFound p .package h = some w₂ →
      ((∃ w, ExplainedBy p ((start v).after p h) w) ↔
        ∀ name, p.answer w₁ (npm name) = p.answer w₂ (npm name)) ∧
      (w₁.readText (Manifest.npmFile p.root) = w₂.readText (Manifest.npmFile p.root) →
        OneReading p v h)) ∧
    ((start v).firstFound p (.dependencies .npm) h = none ∨
      (start v).firstFound p .package h = none → OneReading p v h) := by
  refine ⟨fun q i a hi ha => ?_, fun w₁ w₂ h₁ h₂ => ⟨exists_explainedBy_iff h₁ h₂, fun htext => ?_⟩,
    oneReading_of_firstFound_eq_none⟩
  · obtain ⟨w, hw⟩ := Option.isSome_iff_exists.mp (ha.firstFound hi)
    have hfresh : q.fresh p w = .ok a := (reply_of_firstFound hi hw).symm.trans ha.reply
    exact ⟨w, hw, hfresh, fun now => (reply_of_found hi hw now).trans hfresh⟩
  · obtain ⟨w, hw⟩ := (exists_explainedBy_iff h₁ h₂).mpr fun name =>
      Project.answer_congr (.inl rfl) htext
    exact hw.oneReading

/-- Nothing is listed at first; then the file is written anew, and a field of it is asked for. -/
theorem package_answers_of_two_readings_rewritten :
    let p : Project := ⟨⟨.root, []⟩, []⟩
    let v : View := ⟨⟨[(["package.json"], .file [])]⟩, []⟩
    let entry : Entry := .file "\x7b\"dependencies\":\x7b\"a\":\"1\"\x7d\x7d".toUTF8.toList
    let h : List Event := [.call (.ask (.identifier (npm "a"))), .write ["package.json"] entry,
      .call (.ask (.identifier (field "dependencies.a")))]
    Answered p v h (.identifier (npm "a")) ⟨false, none⟩ ∧
      Answered p v h (.identifier (field "dependencies.a")) ⟨true, some (.str "1")⟩ ∧
      (∀ now, (Situation.mk now ((start v).after p h).findings).reply p
        (.ask (.identifier (npm "a"))) = .ok ⟨false, none⟩) ∧
      ¬∃ w, ExplainedBy p ((start v).after p h) w := by
  intro p v entry h
  have hnpm : Answered p v h (.identifier (npm "a")) ⟨false, none⟩ :=
    ⟨[], _, rfl, by decide +kernel⟩
  have h₁ : (start v).firstFound p (.dependencies .npm) h = some v := if_pos (by decide +kernel)
  have h₂ : (start v).firstFound p .package h = some ⟨v.tree.write ["package.json"] entry, []⟩ := by
    simp only [h, firstFound]
    rw [if_neg (by decide +kernel), if_neg (by decide +kernel), if_pos (by decide +kernel)]
    rfl
  obtain ⟨hread, htwo, -⟩ := package_answers_of_two_readings p v h
  obtain ⟨-, -, -, hnow⟩ := hread _ _ _ rfl hnpm
  refine ⟨hnpm, ⟨h.take 2, [], rfl, by decide +kernel⟩, hnow, fun hexplained => ?_⟩
  have hsame := ((htwo _ _ h₁ h₂).1.mp hexplained) "a"
  revert hsame
  decide +kernel

end Situation

/-- A file that lists nothing and a later one whose field lists a package are no one file. -/
theorem Situation.not_forall_oneReading :
    ¬∀ (p : Project) (v : View) (h : List Event), (∀ e ∈ h, e.IsAboutPackage p) →
      OneReading p v h := by
  intro hall
  let v : View :=
    ⟨⟨[(["package.json"], .file "\x7b\"dependencies\":\x7b\x7d\x7d".toUTF8.toList)]⟩, []⟩
  let entry : Entry := .file "\x7b\"dependencies\":\x7b\"a\":\"1\"\x7d\x7d".toUTF8.toList
  let h : List Event := [.call (.ask (.identifier (npm "a"))), .write ["package.json"] entry,
    .call (.ask (.identifier (field "dependencies")))]
  obtain ⟨w, hw⟩ := hall ⟨⟨.root, []⟩, []⟩ v h (by
    intro e he
    simp only [h, List.mem_cons, List.not_mem_nil, or_false] at he
    rcases he with rfl | rfl | rfl
    · exact .inl rfl
    · rfl
    · exact .inr rfl)
  have hnpm := hw (npm "a") ⟨false, none⟩ (.inl rfl) ⟨[], _, rfl, by decide +kernel⟩
  have hfield := hw (field "dependencies") ⟨true, some (.map [(.str "a", .str "1")])⟩ (.inr rfl)
    ⟨h.take 2, [], rfl, by decide +kernel⟩
  rw [Project.answer_field] at hfield
  obtain ⟨es, hes, hfield⟩ := bind_eq_ok_iff.mp hfield
  rw [Entries.answer_of_dottedParts (by decide)] at hfield
  have htable : es.field? "dependencies" = some (.map [(.str "a", .str "1")]) :=
    congrArg Answer.value (Except.ok.inj hfield)
  have hlisted := Manifest.contains_listed (by decide) htable List.mem_cons_self
  rw [Project.answer_npm, hes] at hnpm
  cases hlisted.symm.trans (congrArg Answer.found (Except.ok.inj hnpm))

end Rulebook
