import Rulebook.Proofs.Include.Append

/-!
# Replacing directives

What an expansion that succeeds makes of a text. `Directive.replace` puts texts in the place of
directives, from the last one to the first, so that the offsets of the others stay valid. A
directive fills its line up to a carriage return; so the text can as well be taken line by line
(`Directive.replace_find`), and that is what a splice comes to (`Include.splice_find_ok_iff`).
-/

namespace Rulebook

namespace Lines

/-- The carriage return that may end a line. -/
theorem withoutReturn_cases (line : Text) :
    withoutReturn line = line ∨ line = withoutReturn line ++ ['\r'] := by
  unfold withoutReturn
  split
  next h =>
    obtain ⟨start, rfl⟩ := List.getLast?_eq_some_iff.mp h
    exact .inr (by rw [List.dropLast_concat])
  next => exact .inl rfl

end Lines

namespace Directive

/-- The directive that fills `line`, if there is one. -/
def ofLine? (offset : Nat) (line : Text) : Option Directive :=
  (path? (Lines.withoutReturn line)).map (⟨·, Lines.withoutReturn line, offset⟩)

theorem findFrom_cons (offset : Nat) (line : Text) (lines : List Text) :
    findFrom offset (line :: lines) =
      (ofLine? offset line).toList ++ findFrom (offset + line.length + 1) lines := by
  rw [findFrom, ofLine?]
  cases path? (Lines.withoutReturn line) <;> rfl

theorem of_ofLine? {offset : Nat} {line : Text} {d : Directive} (h : ofLine? offset line = some d) :
    d.start = offset ∧ ∃ tail, line = d.line ++ tail ∧ (tail = [] ∨ tail = ['\r']) := by
  obtain ⟨path, -, rfl⟩ := Option.map_eq_some_iff.mp h
  refine ⟨rfl, ?_⟩
  rcases Lines.withoutReturn_cases line with h | h
  · exact ⟨[], by rw [List.append_nil]; exact h.symm, .inl rfl⟩
  · exact ⟨['\r'], h, .inr rfl⟩

/-- Puts `f d` in the place of each directive `d`, the last one first. -/
def replace (f : Directive → Text) (body : Text) (ds : List Directive) : Text :=
  ds.foldr (fun d s => s.take d.start ++ f d ++ s.drop d.stop) body

/-- A line with the directive that fills it replaced; the carriage return after it stays. -/
def replaceLine (f : Directive → Text) (offset : Nat) (line : Text) : Text :=
  match ofLine? offset line with
  | some d => f d ++ line.drop d.line.length
  | none => line

def replaceLines (f : Directive → Text) (offset : Nat) : List Text → List Text
  | [] => []
  | line :: lines =>
    replaceLine f offset line :: replaceLines f (offset + line.length + 1) lines

section Replace

variable {f : Directive → Text}

/-- One line of a text, the rest of which has been taken care of. -/
theorem replace_line {body line after : Text} {ds : List Directive} (before : Text)
    (h : replace f body ds = before ++ line ++ after) :
    replace f body ((ofLine? before.length line).toList ++ ds) =
      before ++ replaceLine f before.length line ++ after := by
  unfold replaceLine
  cases hd : ofLine? before.length line with
  | none => exact h
  | some d =>
    obtain ⟨hstart, tail, rfl, -⟩ := of_ofLine? hd
    show (replace f body ds).take d.start ++ f d ++ (replace f body ds).drop d.stop = _
    rw [h, stop, hstart]
    simp [List.drop_append]

theorem replace_lines {body : Text} {lines : List Text} (before : Text)
    (h : body = before ++ lines.flatMap ('\n' :: ·)) :
    replace f body (findFrom (before.length + 1) lines) =
      before ++ (replaceLines f (before.length + 1) lines).flatMap ('\n' :: ·) := by
  induction lines generalizing before with
  | nil => exact h
  | cons line lines ih =>
    have hnext := ih (before ++ ['\n'] ++ line) (by simp [h])
    have hlength : (before ++ ['\n'] ++ line).length + 1 = before.length + 1 + line.length + 1 := by
      simp only [List.length_append, List.length_singleton]
    have hline := replace_line _ hnext
    rw [hlength, List.length_append, List.length_singleton, ← findFrom_cons] at hline
    rw [hline, replaceLines]
    simp

/-- Directives can be replaced line by line. -/
theorem replace_find (f : Directive → Text) (body : Text) :
    replace f body (find body) =
      ['\n'].intercalate (replaceLines f 0 (Lines.byLineFeed body)) := by
  have hbody := Lines.intercalate_byLineFeed body
  unfold find
  cases hl : Lines.byLineFeed body with
  | nil => exact absurd hl (Blank.splitWhere_ne_nil _ body)
  | cons line lines =>
    rw [hl, Lines.intercalate_cons] at hbody
    have hnext := replace_lines (f := f) line hbody.symm
    have hline := replace_line [] hnext
    rw [List.nil_append, List.length_nil] at hline
    rw [findFrom_cons, replaceLines, Lines.intercalate_cons, Nat.zero_add]
    exact hline

end Replace

end Directive

/-! ## Splices -/

namespace Include

/-- What came out, empty where nothing did. -/
def Traced.value (x : Traced Text) : Text := x.result.toOption.getD []

theorem Traced.result_of_ran_ok {x : Traced Text} (h : x.ran.result = .ok ()) :
    x.result = .ok x.value := by
  obtain ⟨t, ht⟩ := ran_ok_iff.mp h
  rw [value, ht]
  rfl

section Splice

variable {expansion : Directive → Traced Text} {f : Directive → Text} {body : Text}

theorem splice_cons_of_ok {d : Directive} {ds : List Directive} {offset : Nat} {inner rest : Text}
    (hd : (expansion d).result = .ok inner)
    (hds : (splice expansion body d.stop ds).result = .ok rest) :
    (splice expansion body offset (d :: ds)).result =
      .ok ((body.take d.start).drop offset ++ inner ++ rest) := by
  show (expansion d >>= fun inner => splice expansion body d.stop ds >>= fun rest =>
    pure ((body.take d.start).drop offset ++ inner ++ rest)).result = _
  rw [Traced.bind_of_ok hd, Traced.bind_of_ok hds]
  rfl

/-- One line of a text; the directives `ds` come after it, and a splice through them may start
anywhere up to its end. -/
theorem splice_line (before : Text) {line rest after : Text} {ds : List Directive} {offset : Nat}
    (hbody : body = before ++ line ++ rest)
    (h : Directive.replace f body ds = before ++ line ++ after)
    (hds : ∀ k ≤ (before ++ line).length,
      (splice expansion body k ds).result = .ok ((Directive.replace f body ds).drop k))
    (hok : ∀ d ∈ (Directive.ofLine? before.length line).toList, (expansion d).result = .ok (f d))
    (hoffset : offset ≤ before.length) :
    (splice expansion body offset ((Directive.ofLine? before.length line).toList ++ ds)).result =
      .ok ((Directive.replace f body
        ((Directive.ofLine? before.length line).toList ++ ds)).drop offset) := by
  rw [Directive.replace_line before h]
  unfold Directive.replaceLine
  cases hd : Directive.ofLine? before.length line with
  | none =>
    rw [Option.toList_none, List.nil_append, ← h]
    exact hds offset (by rw [List.length_append]; omega)
  | some d =>
    obtain ⟨hstart, tail, rfl, -⟩ := Directive.of_ofLine? hd
    have hstop : d.stop = before.length + d.line.length := by rw [Directive.stop, hstart]
    have hrest := hds d.stop (by simp only [List.length_append]; omega)
    have hinner := hok d (by rw [hd]; exact List.mem_singleton_self d)
    have hcut : body.take before.length = before := by simp [hbody]
    have htail : (before ++ (d.line ++ tail) ++ after).drop (before.length + d.line.length) =
        tail ++ after := by
      simp [List.drop_append]
    rw [Option.toList_some, List.singleton_append, splice_cons_of_ok hinner hrest, h, hstart, hstop,
      hcut, htail, List.append_assoc before, List.drop_append_of_le_length hoffset]
    simp

theorem splice_lines {before : Text} {lines : List Text} {offset : Nat}
    (hbody : body = before ++ lines.flatMap ('\n' :: ·))
    (hok : ∀ d ∈ Directive.findFrom (before.length + 1) lines, (expansion d).result = .ok (f d))
    (hoffset : offset ≤ before.length) :
    (splice expansion body offset (Directive.findFrom (before.length + 1) lines)).result =
      .ok ((Directive.replace f body
        (Directive.findFrom (before.length + 1) lines)).drop offset) := by
  induction lines generalizing before offset with
  | nil => rfl
  | cons line lines ih =>
    have hlength : (before ++ ['\n'] ++ line).length + 1 = before.length + 1 + line.length + 1 := by
      simp only [List.length_append, List.length_singleton]
    have hbody' : body = before ++ ['\n'] ++ line ++ lines.flatMap ('\n' :: ·) := by
      rw [hbody, List.flatMap_cons]
      simp
    rw [Directive.findFrom_cons] at hok ⊢
    obtain ⟨hline, hlines⟩ := List.forall_mem_append.mp hok
    rw [← hlength] at hlines ⊢
    have hstart : before.length + 1 = (before ++ ['\n']).length := by
      rw [List.length_append, List.length_singleton]
    rw [hstart] at hline ⊢
    exact splice_line _ hbody' (Directive.replace_lines _ hbody')
      (fun k hk => ih hbody' hlines hk) hline (by omega)

/-- A splice through all directives of a text comes out if each of them does, and puts what came
out of them in their places. -/
theorem splice_find_of_ok (hok : ∀ d ∈ Directive.find body, (expansion d).result = .ok (f d)) :
    (splice expansion body 0 (Directive.find body)).result =
      .ok (Directive.replace f body (Directive.find body)) := by
  have hbody := Lines.intercalate_byLineFeed body
  unfold Directive.find at hok ⊢
  cases hl : Lines.byLineFeed body with
  | nil => exact absurd hl (Blank.splitWhere_ne_nil _ body)
  | cons line lines =>
    rw [hl, Lines.intercalate_cons] at hbody
    rw [hl, Directive.findFrom_cons] at hok
    obtain ⟨hline, hlines⟩ := List.forall_mem_append.mp hok
    rw [Nat.zero_add] at hlines
    rw [Directive.findFrom_cons, Nat.zero_add]
    exact splice_line [] hbody.symm (Directive.replace_lines line hbody.symm)
      (fun k hk => splice_lines hbody.symm hlines hk) hline (Nat.le_refl 0)

theorem splice_find_ok_iff {out : Text} :
    (splice expansion body 0 (Directive.find body)).result = .ok out ↔
      (∀ d ∈ Directive.find body, (expansion d).ran.result = .ok ()) ∧
        out = Directive.replace (fun d => (expansion d).value) body (Directive.find body) := by
  constructor
  · intro h
    have hran : (splice expansion body 0 (Directive.find body)).ran.result = .ok () :=
      Traced.ran_ok_iff.mpr ⟨out, h⟩
    rw [ran_splice, visit_ok_iff] at hran
    have hvalue := splice_find_of_ok fun d hd => Traced.result_of_ran_ok (hran d hd)
    exact ⟨hran, Except.ok.inj (h.symm.trans hvalue)⟩
  · rintro ⟨hran, rfl⟩
    exact splice_find_of_ok fun d hd => Traced.result_of_ran_ok (hran d hd)

end Splice

/-! ## Expansions -/

section Opened

variable {read : Path → Except File.ReadError Text} {limit depth : Nat} {n : Nesting}
  {d : Directive} {text : Text}

theorem opened_of_mem (h : target n d ∈ n.files) :
    opened read limit depth n d = .fail (fault n d (.circular (n.cycle (target n d)))) := by
  unfold opened expandOne
  exact if_pos h

theorem opened_zero (h : target n d ∉ n.files) :
    opened read limit 0 n d = .fail (fault n d (.tooDeep limit)) := by
  unfold opened expandOne
  exact if_neg h

theorem opened_of_error {why : File.ReadError} (h : target n d ∉ n.files)
    (hr : read (target n d) = .error why) :
    opened read limit (depth + 1) n d = .fail (fault n d (Error.ofRead why)) := by
  unfold opened expandOne
  simp only [deeper, h, ↓reduceIte, hr]

theorem opened_of_ok (h : target n d ∉ n.files) (hr : read (target n d) = .ok text) :
    opened read limit (depth + 1) n d = Traced.note (.entered (target n d)) >>= fun _ =>
      expand read limit depth (n.enter (target n d)) (Frontmatter.body text) >>= fun inner =>
        Traced.note (.spliced (String.ofList d.path) (target n d)) >>= fun _ => pure inner := by
  unfold opened expandOne
  simp only [deeper, h, ↓reduceIte, hr]

/-- A directive gives way to the body of its target, expanded one level deeper. -/
theorem opened_eq_ok_iff {out : Text} :
    (opened read limit depth n d).result = .ok out ↔
      target n d ∉ n.files ∧ ∃ deeper text, depth = deeper + 1 ∧ read (target n d) = .ok text ∧
        (expand read limit deeper (n.enter (target n d)) (Frontmatter.body text)).result =
          .ok out := by
  by_cases hc : target n d ∈ n.files
  · rw [opened_of_mem hc]
    simp [hc, Traced.fail]
  cases depth with
  | zero =>
    rw [opened_zero hc]
    simp [Traced.fail]
  | succ depth =>
    cases hr : read (target n d) with
    | error why =>
      rw [opened_of_error hc hr]
      simp [Traced.fail]
    | ok text =>
      rw [opened_of_ok hc hr, Traced.bind_of_ok rfl]
      cases hx :
        (expand read limit depth (n.enter (target n d)) (Frontmatter.body text)).result with
      | error e =>
        rw [Traced.bind_of_error hx]
        simp [hx]
      | ok inner =>
        rw [Traced.bind_of_ok hx, Traced.bind_of_ok rfl]
        show Except.ok inner = .ok out ↔ _
        simp [hc, hx]

end Opened

/-! ## Resolutions -/

section Resolution

variable {read : Path → Except File.ReadError Text} {limit : Nat} {file base : Path}
  {content : Text}

theorem resolution_of_find_eq_nil (h : Directive.find (Frontmatter.body content) = []) :
    resolution read limit file base content = ⟨content, false, [], none⟩ := by
  unfold resolution
  dsimp only
  rw [h]
  rfl

/-- The text of a resolution without an error: the block as it is, then the body expanded. -/
theorem content_resolution (h : (resolution read limit file base content).error = none) :
    ∃ out, (expand read limit limit ⟨file, [], base⟩ (Frontmatter.body content)).result = .ok out ∧
      (resolution read limit file base content).content = Frontmatter.prologue content ++ out := by
  by_cases hf : Directive.find (Frontmatter.body content) = []
  · refine ⟨Frontmatter.body content, ?_, ?_⟩
    · rw [expand_eq, hf]
      rfl
    · rw [resolution_of_find_eq_nil hf, Frontmatter.prologue_append_body]
  · obtain ⟨out, hout⟩ : ∃ out, (expand read limit limit ⟨file, [], base⟩
        (Frontmatter.body content)).result = .ok out := by
      rw [← Traced.ran_ok_iff, ran_expand]
      exact resolution_error_eq_none_iff.mp h
    refine ⟨out, hout, ?_⟩
    unfold resolution
    dsimp only
    rw [if_neg (by rwa [List.isEmpty_iff]), hout]

end Resolution

end Include

end Rulebook
