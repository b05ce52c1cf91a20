import Rulebook.Include.Expansion

/-!
# Walks over directives

Which files an expansion enters, which directives it replaces and how it ends depend on the
directives alone, not on the text around them. `visit e ds` goes through `ds` and forgets the text
that comes out; `ran_splice` and `ran_expand` identify it with the expansion of a body, and
`ran_opened` says what one directive can do.
-/

namespace Rulebook.Include

variable {α β : Type}

namespace Traced

theorem bind_of_ok {x : Traced α} {a : α} (h : x.result = .ok a) (f : α → Traced β) :
    (x >>= f) = ⟨x.steps ++ (f a).steps, (f a).result⟩ := by
  show bind x f = _
  unfold bind
  rw [h]

theorem bind_of_error {x : Traced α} {e : Error} (h : x.result = .error e) (f : α → Traced β) :
    (x >>= f) = ⟨x.steps, .error e⟩ := by
  show bind x f = _
  unfold bind
  rw [h]

/-- What happened, without the value that came out. -/
def ran (x : Traced α) : Traced Unit := ⟨x.steps, x.result.map fun _ => ()⟩

@[simp] theorem steps_ran (x : Traced α) : x.ran.steps = x.steps := rfl

theorem ran_of_ok {x : Traced α} {a : α} (h : x.result = .ok a) : x.ran = ⟨x.steps, .ok ()⟩ := by
  simp [ran, h, Except.map]

theorem ran_of_error {x : Traced α} {e : Error} (h : x.result = .error e) :
    x.ran = ⟨x.steps, .error e⟩ := by
  simp [ran, h, Except.map]

theorem ran_ok_iff {x : Traced α} : x.ran.result = .ok () ↔ ∃ a, x.result = .ok a := by
  cases h : x.result with
  | ok a => simp [ran_of_ok h]
  | error e => simp [ran_of_error h]

theorem ran_error_iff {x : Traced α} {e : Error} :
    x.ran.result = .error e ↔ x.result = .error e := by
  cases h : x.result with
  | ok a => simp [ran_of_ok h]
  | error e => simp [ran_of_error h]

theorem ran_bind (x : Traced α) (f : α → Traced β) : (x >>= f).ran = x >>= fun a => (f a).ran := by
  cases h : x.result with
  | ok a => rw [bind_of_ok h, bind_of_ok h]; rfl
  | error e => rw [bind_of_error h, bind_of_error h]; rfl

/-- A continuation that ignores the value sees only what happened. -/
theorem bind_const (x : Traced α) (y : Traced β) : (x >>= fun _ => y) = x.ran >>= fun _ => y := by
  cases h : x.result with
  | ok a => rw [bind_of_ok h, bind_of_ok (a := ()) (by rw [ran_of_ok h]), steps_ran]
  | error e => rw [bind_of_error h, bind_of_error (e := e) (by rw [ran_of_error h]), steps_ran]

/-- What happened is itself followed by nothing. -/
theorem bind_pure_unit (x : Traced α) : (x >>= fun _ => (pure () : Traced Unit)) = x.ran := by
  cases h : x.result with
  | ok a => rw [bind_of_ok h, ran_of_ok h]; exact congrArg (Traced.mk · _) (List.append_nil _)
  | error e => rw [bind_of_error h, ran_of_error h]

end Traced

/-- The files that were entered, in order. -/
def enteredIn (steps : List Step) : List Path :=
  steps.filterMap fun s => match s with
    | .entered target => some target
    | .spliced .. => none

/-- The directives that were replaced, in order. -/
def splicedIn (steps : List Step) : List (String × Path) :=
  steps.filterMap fun s => match s with
    | .entered _ => none
    | .spliced written target => some (written, target)

theorem enteredIn_append (s t : List Step) : enteredIn (s ++ t) = enteredIn s ++ enteredIn t :=
  List.filterMap_append

theorem splicedIn_append (s t : List Step) : splicedIn (s ++ t) = splicedIn s ++ splicedIn t :=
  List.filterMap_append

/-- Goes through directives, up to the first that fails. -/
def visit (expansion : Directive → Traced Text) : List Directive → Traced Unit
  | [] => pure ()
  | d :: ds => do
    let _ ← expansion d
    visit expansion ds

section Visit

variable {expansion expansion' : Directive → Traced Text}

theorem visit_cons (d : Directive) (ds : List Directive) :
    visit expansion (d :: ds) = (expansion d).ran >>= fun _ => visit expansion ds :=
  Traced.bind_const _ _

theorem visit_append (ds es : List Directive) :
    visit expansion (ds ++ es) = visit expansion ds >>= fun _ => visit expansion es := by
  induction ds with
  | nil => exact (Traced.pure_bind () fun _ => visit expansion es).symm
  | cons d ds ih =>
    show Traced.bind _ _ = Traced.bind (Traced.bind _ _) _
    rw [Traced.bind_assoc]
    exact congrArg (Traced.bind (expansion d)) (funext fun _ => ih)

/-- Walks in which the same happens at each directive are the same. -/
theorem visit_congr {ds es : List Directive}
    (h : ds.map (fun d => (expansion d).ran) = es.map fun d => (expansion' d).ran) :
    visit expansion ds = visit expansion' es := by
  induction ds generalizing es with
  | nil => rw [List.map_eq_nil_iff.mp h.symm]; rfl
  | cons d ds ih =>
    obtain ⟨e, es, rfl, hd, hds⟩ := List.map_eq_cons_iff.mp h.symm
    rw [visit_cons, visit_cons, hd, ih hds.symm]

theorem visit_ok_iff {ds : List Directive} :
    (visit expansion ds).result = .ok () ↔ ∀ d ∈ ds, (expansion d).ran.result = .ok () := by
  induction ds with
  | nil => exact ⟨fun _ _ h => (nomatch h), fun _ => rfl⟩
  | cons d ds ih =>
    rw [visit_cons, List.forall_mem_cons, ← ih]
    cases h : (expansion d).ran.result with
    | ok a => rw [Traced.bind_of_ok h]; simp
    | error e => rw [Traced.bind_of_error h]; simp

theorem steps_visit_cons {d : Directive} (h : (expansion d).ran.result = .ok ())
    (ds : List Directive) :
    (visit expansion (d :: ds)).steps = (expansion d).steps ++ (visit expansion ds).steps := by
  rw [visit_cons, Traced.bind_of_ok h, Traced.steps_ran]

theorem ran_splice (body : Text) (offset : Nat) (ds : List Directive) :
    (splice expansion body offset ds).ran = visit expansion ds := by
  induction ds generalizing offset with
  | nil => rfl
  | cons d ds ih =>
    show (expansion d >>= fun inner => splice expansion body d.stop ds >>= fun rest =>
      pure ((body.take d.start).drop offset ++ inner ++ rest)).ran = _
    rw [Traced.ran_bind, visit_cons, ← Traced.bind_const]
    congr 1
    funext inner
    rw [Traced.ran_bind, ← ih d.stop]
    exact Traced.bind_pure_unit _

end Visit

/-! ## Expansion as a walk -/

section Expand

variable (read : Path → Except File.ReadError Text) (limit : Nat)

/-- The expansion of the targets of directives, `depth` more levels deep. -/
def deeper : Nat → Option (Nesting → Text → Traced Text)
  | 0 => none
  | depth + 1 => some (expand read limit depth)

/-- What takes the place of a directive that may lie `depth` levels deep. -/
def opened (depth : Nat) (nesting : Nesting) (d : Directive) : Traced Text :=
  expandOne read limit (deeper read limit depth) nesting d

theorem expand_eq (depth : Nat) (nesting : Nesting) (body : Text) :
    expand read limit depth nesting body =
      splice (opened read limit depth nesting) body 0 (Directive.find body) := by
  cases depth <;> rfl

theorem ran_expand (depth : Nat) (nesting : Nesting) (body : Text) :
    (expand read limit depth nesting body).ran =
      visit (opened read limit depth nesting) (Directive.find body) := by
  rw [expand_eq, ran_splice]

/-- `inner` with the steps around it that its file leaves. -/
def framed (d : Directive) (file : Path) (inner : Traced Unit) : Traced Unit := do
  Traced.note (.entered file)
  inner
  Traced.note (.spliced (String.ofList d.path) file)

theorem framed_of_ok {d : Directive} {file : Path} {inner : Traced Unit}
    (h : inner.result = .ok ()) :
    framed d file inner =
      ⟨.entered file :: inner.steps ++ [.spliced (String.ofList d.path) file], .ok ()⟩ := by
  show Traced.note _ >>= (fun _ => inner >>= fun _ => Traced.note _) = _
  rw [Traced.bind_of_ok rfl, Traced.bind_of_ok h]
  rfl

theorem framed_of_error {d : Directive} {file : Path} {inner : Traced Unit} {e : Error}
    (h : inner.result = .error e) :
    framed d file inner = ⟨.entered file :: inner.steps, .error e⟩ := by
  show Traced.note _ >>= (fun _ => inner >>= fun _ => Traced.note _) = _
  rw [Traced.bind_of_ok rfl, Traced.bind_of_error h]
  rfl

theorem framed_ok_iff {d : Directive} {file : Path} {inner : Traced Unit} :
    (framed d file inner).result = .ok () ↔ inner.result = .ok () := by
  cases h : inner.result with
  | ok a => rw [framed_of_ok h]
  | error e => rw [framed_of_error h]

/-- All that can happen at a directive. -/
theorem ran_opened (depth : Nat) (nesting : Nesting) (d : Directive) :
    (opened read limit depth nesting d).ran =
      let file := target nesting d
      if file ∈ nesting.files then .fail (fault nesting d (.circular (nesting.cycle file)))
      else match depth with
        | 0 => .fail (fault nesting d (.tooDeep limit))
        | depth + 1 => match read file with
          | .error why => .fail (fault nesting d (Error.ofRead why))
          | .ok text => framed d file (visit (opened read limit depth (nesting.enter file))
              (Directive.find (Frontmatter.body text))) := by
  show (expandOne read limit (deeper read limit depth) nesting d).ran = _
  unfold expandOne
  dsimp only
  split
  · rfl
  · cases depth with
    | zero => rfl
    | succ depth =>
      simp only [deeper]
      cases read (target nesting d) with
      | error why => rfl
      | ok text =>
        dsimp only [framed]
        rw [← ran_expand, ← Traced.bind_const, Traced.ran_bind]
        congr 1
        funext _
        rw [Traced.ran_bind]
        rfl

/-! ## Resolution as a walk -/

variable (file base : Path)

/-- The walk through the directives of the document `file`. -/
def walk (body : Text) : Traced Unit :=
  visit (opened read limit limit ⟨file, [], base⟩) (Directive.find body)

variable {read limit file base}

theorem steps_resolution (content : Text) :
    (resolution read limit file base content).steps =
      (walk read limit file base (Frontmatter.body content)).steps := by
  unfold resolution walk
  dsimp only
  rw [← ran_expand]
  split
  · rename_i h
    rw [ran_expand, List.isEmpty_iff.mp h]
    rfl
  · split <;> rfl

theorem resolution_error_eq_none_iff {content : Text} :
    (resolution read limit file base content).error = none ↔
      (walk read limit file base (Frontmatter.body content)).result = .ok () := by
  unfold resolution walk
  dsimp only
  split
  · rename_i h
    rw [List.isEmpty_iff.mp h]
    exact ⟨fun _ => rfl, fun _ => rfl⟩
  · rw [← ran_expand, Traced.ran_ok_iff]
    cases (expand read limit limit ⟨file, [], base⟩ (Frontmatter.body content)).result <;> simp

theorem resolution_error_eq_some_iff {content : Text} {e : Error} :
    (resolution read limit file base content).error = some e ↔
      (walk read limit file base (Frontmatter.body content)).result = .error e := by
  unfold resolution walk
  dsimp only
  split
  · rename_i h
    rw [List.isEmpty_iff.mp h]
    exact ⟨fun h => (nomatch h), fun h => (nomatch h)⟩
  · rw [← ran_expand, Traced.ran_error_iff]
    cases (expand read limit limit ⟨file, [], base⟩ (Frontmatter.body content)).result <;> simp

theorem eq_resolution_of_resolve {content : Text} {r : Resolution}
    (h : resolve read limit file base content = .ok r) :
    r = resolution read limit file base content := by
  unfold resolve at h
  dsimp only at h
  split at h
  · cases h
  · exact (Except.ok.inj h).symm

/-- A resolution without an error is handed on as it is. -/
theorem resolve_of_error_eq_none {content : Text}
    (h : (resolution read limit file base content).error = none) :
    resolve read limit file base content = .ok (resolution read limit file base content) := by
  unfold resolve
  dsimp only
  rw [h]

variable (read limit file base) in
/-- A resolution is handed on as it is, unless a target is no path at all. -/
theorem resolve_cases (content : Text) :
    ((∀ e, (resolution read limit file base content).error = some e →
        e.cause ≠ .unreadable .nullInPath) ∧
      resolve read limit file base content = .ok (resolution read limit file base content)) ∨
    ∃ e, (resolution read limit file base content).error = some e ∧
      e.cause = .unreadable .nullInPath ∧
      resolve read limit file base content = .error (.badValue .nullInPath) := by
  unfold resolve
  dsimp only
  split
  next h => exact .inr ⟨_, h, rfl, rfl⟩
  next h =>
    refine .inl ⟨fun e he hcause => ?_, rfl⟩
    obtain ⟨cause, written, target, source⟩ := e
    cases hcause
    exact h written target source he

/-- A resolution of which some facts are known. -/
theorem exists_of_map_toOption {x : Except Fault Resolution} {facts : Resolution → α} {a : α}
    (h : x.toOption.map facts = some a) : ∃ r, x = .ok r ∧ facts r = a := by
  cases x with
  | error e => cases h
  | ok r => exact ⟨r, rfl, Option.some.inj h⟩

end Expand

end Rulebook.Include
