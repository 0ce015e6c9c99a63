/-
Faults of reading declaration data.

The entries of declaration data may be any values. Most that do not fit are refused with an error
of their own, but three things are used without a look at what they are: the methods of a class and
the parameters of a method are walked, and repeated names of methods are put into a message. So
null, a number or a truth value in place of a list ends the reading with a fault that is not
reported, and so does a repeated name that is no text. `MistypedMethod` and `MistypedClass` say
this of one entry, and reading ends so exactly when the first entry that cannot be read is such a
one. Nor is a name or a return type refused for what it is, unless it counts as false: `TakesClass`
says what a declaration keeps of its entry (`load_fault`).
-/
import DartDecoders.Declaration.Document
import DartDecoders.Proofs.Faults

set_option autoImplicit false

namespace DartDecoders

/-! ## Values -/

namespace Json

/-- The values that cannot be walked. -/
def isScalar : Json → Bool
  | .null | .bool _ | .int _ | .float _ => true
  | .str _ | .arr _ | .obj _ => false

/-- The values that are texts. -/
def isText : Json → Bool
  | .str _ => true
  | _ => false

/-- A text is the same as texts only. -/
theorem isText_of_same {x y : Json} (h : same x y = true) : y.isText = x.isText := by
  cases x <;> cases y <;> simp_all [same, isText, whole?]

/-- Of values that are the same one is kept, so what they have in common is not lost. The induction
is on the values that are still to come, behind those that are kept already. -/
theorem exists_mem_foldl_distinct_iff {p : Json → Prop} (hp : ∀ x y, same x y = true → p x → p y)
    (values kept : List Json) :
    (∃ x ∈ values.foldl (fun kept value => if memberOf value kept then kept else value :: kept)
      kept, p x) ↔ (∃ x ∈ kept, p x) ∨ ∃ x ∈ values, p x := by
  induction values generalizing kept with
  | nil => simp
  | cons value rest ih =>
      rw [List.foldl_cons, ih]
      by_cases hmember : memberOf value kept = true
      -- a value that is the same is kept already
      · obtain ⟨found, hfound, hsame⟩ := List.any_eq_true.1 hmember
        have hkept : p value → ∃ x ∈ kept, p x := fun hvalue =>
          ⟨found, hfound, hp value found hsame hvalue⟩
        rw [if_pos hmember, List.exists_mem_cons_iff, ← or_assoc, or_iff_left_of_imp hkept]
      · rw [if_neg hmember, List.exists_mem_cons_iff, List.exists_mem_cons_iff, or_assoc,
          or_left_comm]

theorem exists_mem_distinct_iff {p : Json → Prop} (hp : ∀ x y, same x y = true → p x → p y)
    {values : List Json} : (∃ x ∈ distinct values, p x) ↔ ∃ x ∈ values, p x := by
  have hfold := exists_mem_foldl_distinct_iff hp values []
  simpa [distinct] using hfold

theorem distinct_eq_nil_iff {values : List Json} : distinct values = [] ↔ values = [] := by
  have hsome : (∃ x ∈ distinct values, True) ↔ ∃ x ∈ values, True :=
    exists_mem_distinct_iff fun _ _ _ _ => trivial
  rw [List.eq_nil_iff_forall_not_mem, List.eq_nil_iff_forall_not_mem]
  simpa using not_congr hsome

end Json

namespace Declaration

theorem elementsOf_eq_error_iff {value : Json} {f : Fault} :
    elementsOf value = .error f ↔ f = .wrongKind ∧ value.isScalar = true := by
  cases value <;> simp [elementsOf, Json.isScalar, eq_comm]

/-! ## Parameters -/

theorem parameterOfText_failsWith (method : Json) (t : Text) :
    FailsWith IsDeclarationError (parameterOfText method t) := by
  unfold parameterOfText
  split
  · split
    · exact .error ⟨_, rfl, rfl⟩
    · exact .ok _
  · exact .error ⟨_, rfl, rfl⟩

/-- A parameter entry that does not fit is refused, whatever it is. -/
theorem parameterOf_failsWith (method entry : Json) :
    FailsWith IsDeclarationError (parameterOf method entry) := by
  unfold parameterOf
  split
  · exact parameterOfText_failsWith method _
  · split
    · dsimp only
      split
      · exact .ok _
      · exact .error ⟨_, rfl, rfl⟩
    · exact .error ⟨_, rfl, rfl⟩
  · exact .error ⟨_, rfl, rfl⟩

/-! ## Methods -/

/-- The faults of reading an entry. -/
def EntryFault (f : Fault) : Prop :=
  f = .wrongKind ∨ IsDeclarationError f

theorem not_isDeclarationError_wrongKind : ¬ IsDeclarationError .wrongKind :=
  nofun

theorem elementsOf_failsWith (value : Json) : FailsWith EntryFault (elementsOf value) :=
  fun _ hf => .inl (elementsOf_eq_error_iff.1 hf).1

/-- A method with a name and a return type whose parameters cannot be walked. -/
inductive MistypedMethod : Json → Prop
  | parameters {entries : List (Text × Json)} : (field entries "name" .null).isTruthy = true →
    (field entries "returnType" .null).isTruthy = true →
    (field entries "parameters" (.arr [])).isScalar = true → MistypedMethod (.obj entries)

/-- What is read of the parameters of a method. -/
theorem parameters_failsWith (method : Json) (parameters : List Json) :
    FailsWith IsDeclarationError (parameters.mapM (parameterOf method)) :=
  .mapM fun p _ => parameterOf_failsWith method p

theorem methodOf_failsWith (owner entry : Json) :
    FailsWith EntryFault (methodOf owner entry) := by
  unfold methodOf
  split
  · dsimp only
    split
    · exact .error (.inr ⟨_, rfl, rfl⟩)
    · exact .bind (elementsOf_failsWith _) fun parameters _ =>
        .bind ((parameters_failsWith _ parameters).mono fun f => .inr) fun _ _ => .ok _
  · exact .error (.inr ⟨_, rfl, rfl⟩)

theorem methodOf_eq_error_iff (owner entry : Json) :
    methodOf owner entry = .error .wrongKind ↔ MistypedMethod entry := by
  constructor
  · intro h
    unfold methodOf at h
    split at h
    · next entries =>
        dsimp only at h
        split at h
        · cases h
        · next hgiven =>
            simp only [Bool.or_eq_true, Bool.not_eq_true', not_or, Bool.not_eq_false] at hgiven
            have hfirst := (FailsWith.bind_eq_error_iff_first (fun parameters _ =>
              .bind (parameters_failsWith _ parameters) fun _ _ => .ok _)
              not_isDeclarationError_wrongKind).1 h
            exact .parameters hgiven.1 hgiven.2 (elementsOf_eq_error_iff.1 hfirst).2
    · cases h
  · rintro ⟨hname, htype, hscalar⟩
    rw [methodOf, elementsOf_eq_error_iff.2 ⟨rfl, hscalar⟩]
    simp only [hname, htype]
    rfl

/-! ## Names of methods -/

/-- A name that is no text is given to several methods. -/
def MistypedNames (names : List Json) : Prop :=
  ∃ name ∈ names, name.isText = false ∧ 1 < names.countP (Json.same name)

theorem textsOf?_eq_none_iff {values : List Json} :
    textsOf? values = none ↔ ∃ x ∈ values, x.isText = false := by
  induction values with
  | nil => simp [textsOf?]
  | cons x rest ih =>
      rw [List.exists_mem_cons_iff, ← ih]
      cases x <;> simp [textsOf?, Json.isText]

theorem exists_mem_repeatedNames_iff {names : List Json} :
    (∃ x ∈ repeatedNames names, x.isText = false) ↔ MistypedNames names := by
  have hsame : ∀ x y : Json, Json.same x y = true → x.isText = false → y.isText = false :=
    fun x y h hx => (Json.isText_of_same h).trans hx
  rw [repeatedNames, Json.exists_mem_distinct_iff hsame]
  refine exists_congr fun x => ?_
  simp only [List.mem_filter, decide_eq_true_eq, gt_iff_lt, List.countP_eq_length_filter]
  exact ⟨fun ⟨⟨hx, hcount⟩, htext⟩ => ⟨hx, htext, hcount⟩,
    fun ⟨hx, htext, hcount⟩ => ⟨⟨hx, hcount⟩, htext⟩⟩

/-- How often a text occurs among texts. -/
theorem length_filter_same (names : List Text) (name : Text) :
    ((names.map Json.str).filter (Json.same (.str name))).length = names.count name := by
  have hsame : (Json.same (.str name) ∘ Json.str) = fun other => other == name := by
    funext other
    exact Bool.beq_comm
  rw [List.filter_map, List.length_map, hsame, ← List.countP_eq_length_filter, List.count]

/-- Names that are texts are refused when one is given to several methods. -/
theorem checkNames_eq_ok_iff {owner : Json} {names : List Text} :
    checkNames owner (names.map .str) = .ok () ↔ names.Nodup := by
  have hnone : repeatedNames (names.map .str) = [] ↔ names.Nodup := by
    rw [repeatedNames, Json.distinct_eq_nil_iff, List.filter_eq_nil_iff, List.forall_mem_map,
      List.nodup_iff_count]
    simp only [length_filter_same, decide_eq_true_eq, gt_iff_lt, Nat.not_lt]
    refine ⟨fun h name => ?_, fun h name _ => h name⟩
    by_cases hmem : name ∈ names
    · exact h name hmem
    · rw [List.count_eq_zero_of_not_mem hmem]
      exact Nat.zero_le 1
  rw [← hnone, checkNames]
  split
  · next hnil => simp [hnil]
  · next hrepeated =>
      rw [iff_false_right hrepeated]
      split <;> exact nofun

theorem checkNames_failsWith (owner : Json) (names : List Json) :
    FailsWith EntryFault (checkNames owner names) := by
  unfold checkNames
  split
  · exact .ok ()
  · split
    · exact .error (.inr ⟨_, rfl, rfl⟩)
    · exact .error (.inl rfl)

theorem checkNames_eq_error_iff {owner : Json} {names : List Json} :
    checkNames owner names = .error .wrongKind ↔ MistypedNames names := by
  rw [← exists_mem_repeatedNames_iff, ← textsOf?_eq_none_iff]
  unfold checkNames
  split
  · next hnone => simp [hnone, textsOf?]
  · cases textsOf? (repeatedNames names) <;> simp

/-! ## Classes -/

theorem envelopeOf_failsWith (owner entry : Json) :
    FailsWith IsDeclarationError (envelopeOf owner entry) := by
  unfold envelopeOf
  split
  · exact .ok _
  · exact .ok _
  · exact .error ⟨_, rfl, rfl⟩

/-- A class with a name whose methods cannot be walked, or of whose methods the first that cannot be
read is a mistyped one, or whose methods have a repeated name that is no text. -/
inductive MistypedClass : Json → Prop
  | methods {entries : List (Text × Json)} : (field entries "name" .null).isTruthy = true →
    (field entries "methods" (.arr [])).isScalar = true → MistypedClass (.obj entries)
  | method {entries : List (Text × Json)} {items : List Json} :
    (field entries "name" .null).isTruthy = true →
    elementsOf (field entries "methods" (.arr [])) = .ok items →
    StopsAtFirst (methodOf (field entries "name" .null)) MistypedMethod items →
    MistypedClass (.obj entries)
  | names {entries : List (Text × Json)} {items : List Json} {methods : List Method} :
    (field entries "name" .null).isTruthy = true →
    elementsOf (field entries "methods" (.arr [])) = .ok items →
    items.mapM (methodOf (field entries "name" .null)) = .ok methods →
    MistypedNames (methods.map (·.name)) → MistypedClass (.obj entries)

theorem classOf_failsWith (sourceFile entry : Json) :
    FailsWith EntryFault (classOf sourceFile entry) := by
  unfold classOf
  split
  · dsimp only
    split
    · exact .error (.inr ⟨_, rfl, rfl⟩)
    · refine .bind (elementsOf_failsWith _) fun items _ => ?_
      refine .bind (.mapM fun item _ => methodOf_failsWith _ item) fun methods _ => ?_
      refine .bind (checkNames_failsWith _ _) fun _ _ => ?_
      exact .bind ((envelopeOf_failsWith _ _).mono fun f => .inr) fun _ _ => .ok _
  · exact .error (.inr ⟨_, rfl, rfl⟩)

theorem classOf_eq_error_iff (sourceFile entry : Json) :
    classOf sourceFile entry = .error .wrongKind ↔ MistypedClass entry := by
  constructor
  · intro h
    unfold classOf at h
    split at h
    · next entries =>
        dsimp only at h
        split at h
        · cases h
        · next hgiven =>
            have hname : (field entries "name" .null).isTruthy = true := by simpa using hgiven
            -- the walk, the methods, their names and the envelope come one after the other
            rcases bind_eq_error_or_iff.1 h with hwalk | ⟨items, hitems, h⟩
            · exact .methods hname (elementsOf_eq_error_iff.1 hwalk).2
            rcases bind_eq_error_or_iff.1 h with hread | ⟨methods, hmethods, h⟩
            · exact .method hname hitems ((mapM_eq_error_iff fun item _ =>
                methodOf_eq_error_iff _ item).1 hread)
            have hcheck := (FailsWith.bind_eq_error_iff_first (fun _ _ =>
              .bind (envelopeOf_failsWith _ _) fun _ _ => .ok _)
              not_isDeclarationError_wrongKind).1 h
            exact .names hname hitems hmethods (checkNames_eq_error_iff.1 hcheck)
    · cases h
  · intro h
    cases h with
    | methods hname hscalar =>
        rw [classOf, elementsOf_eq_error_iff.2 ⟨rfl, hscalar⟩]
        simp only [hname]
        rfl
    | method hname hitems hfirst =>
        have hread := (mapM_eq_error_iff fun item _ => methodOf_eq_error_iff _ item).2 hfirst
        rw [classOf, hitems]
        simp only [hname, bind, Except.bind, hread]
        rfl
    | names hname hitems hmethods hnames =>
        rw [classOf, hitems]
        simp only [hname, bind, Except.bind, hmethods, checkNames_eq_error_iff.2 hnames]
        rfl

/-! ## Data -/

/-- Of the class entries the first that cannot be read is a mistyped one. -/
def MistypedData (sourceFile data : Json) : Prop :=
  ∃ entries, classEntries data = .ok entries
    ∧ StopsAtFirst (classOf sourceFile) MistypedClass entries

theorem classEntries_failsWith (data : Json) :
    FailsWith IsDeclarationError (classEntries data) := by
  unfold classEntries
  dsimp only
  split
  · exact .ok _
  · exact .error ⟨_, rfl, rfl⟩

theorem ofData_failsWith (data sourceFile : Json) :
    FailsWith EntryFault (ofData data sourceFile) :=
  .bind ((classEntries_failsWith data).mono fun _ => .inr) fun _ _ =>
    .mapM fun entry _ => classOf_failsWith sourceFile entry

theorem ofData_eq_error_iff (data sourceFile : Json) :
    ofData data sourceFile = .error .wrongKind ↔ MistypedData sourceFile data := by
  rw [ofData, FailsWith.bind_eq_error_iff (classEntries_failsWith data)
    not_isDeclarationError_wrongKind]
  exact exists_congr fun entries => and_congr_right fun _ =>
    mapM_eq_error_iff fun entry _ => classOf_eq_error_iff sourceFile entry

/-! ## What is kept of the entries -/

/-- A method has the name and the return type of its entry, which may be any values that do not
count as false. -/
def TakesMethod (entry : Json) (m : Method) : Prop :=
  ∃ entries, entry = .obj entries ∧ m.name = field entries "name" .null
    ∧ m.returnType = field entries "returnType" .null
    ∧ m.name.isTruthy = true ∧ m.returnType.isTruthy = true

/-- A class has the name of its entry, which may be any value that does not count as false, and a
method for everything that a walk over its methods meets. -/
def TakesClass (entry : Json) (d : Declaration) : Prop :=
  ∃ entries items, entry = .obj entries ∧ d.name = field entries "name" .null
    ∧ d.name.isTruthy = true ∧ elementsOf (field entries "methods" (.arr [])) = .ok items
    ∧ List.Forall₂ TakesMethod items d.methods

theorem takesMethod_of_methodOf {owner entry : Json} {m : Method}
    (h : methodOf owner entry = .ok m) : TakesMethod entry m := by
  unfold methodOf at h
  split at h
  · next entries =>
      dsimp only at h
      split at h
      · cases h
      · next hgiven =>
          simp only [Bool.or_eq_true, Bool.not_eq_true', not_or, Bool.not_eq_false] at hgiven
          obtain ⟨parameters, -, h⟩ := bind_eq_ok_iff.1 h
          obtain ⟨read, -, h⟩ := bind_eq_ok_iff.1 h
          cases h
          exact ⟨entries, rfl, rfl, rfl, hgiven⟩
  · cases h

theorem takesClass_of_classOf {sourceFile entry : Json} {d : Declaration}
    (h : classOf sourceFile entry = .ok d) : TakesClass entry d := by
  unfold classOf at h
  split at h
  · next entries =>
      dsimp only at h
      split at h
      · cases h
      · next hgiven =>
          obtain ⟨items, hitems, h⟩ := bind_eq_ok_iff.1 h
          obtain ⟨methods, hmethods, h⟩ := bind_eq_ok_iff.1 h
          obtain ⟨_, -, h⟩ := bind_eq_ok_iff.1 h
          obtain ⟨envelope, -, h⟩ := bind_eq_ok_iff.1 h
          cases h
          exact ⟨entries, items, rfl, rfl, by simpa using hgiven, hitems,
            (mapM_eq_ok_iff.1 hmethods).imp fun _ _ => takesMethod_of_methodOf⟩
  · cases h

/-- **What escapes the loader.** Loading data ends with an error about declarations, or with a value
of a kind that an operation does not take. It does the latter exactly when the first class entry
that cannot be read is a mistyped one. Loaded declarations have the names and return types of their
entries, of whatever kind these are. -/
theorem load_fault (data sourceFile : Json) :
    FailsWith EntryFault (load data sourceFile).result
      ∧ ((load data sourceFile).result = .error .wrongKind ↔ MistypedData sourceFile data)
      ∧ ∀ ds, (load data sourceFile).result = .ok ds →
        ∃ entries, classEntries data = .ok entries ∧ List.Forall₂ TakesClass entries ds := by
  rw [result_load]
  refine ⟨ofData_failsWith data sourceFile, ofData_eq_error_iff data sourceFile, fun ds hds => ?_⟩
  obtain ⟨entries, hentries, hread⟩ := bind_eq_ok_iff.1 hds
  exact ⟨entries, hentries, (mapM_eq_ok_iff.1 hread).imp fun _ _ => takesClass_of_classOf⟩

/-- A class with null in place of its methods. -/
def nullMethods : Json :=
  .arr [.obj [("name".toText, .str "TaskApi".toText), ("methods".toText, .null)]]

/-- A class with a number for its name. -/
def numberName : Json :=
  .arr [.obj [("name".toText, .int 5)]]

/-- Neither is refused as declaration data: the first ends the reading, and the second is read. -/
theorem load_mistyped :
    (load nullMethods .null).result = .error .wrongKind
      ∧ (load numberName .null).result = .ok [{ name := .int 5 }] := by
  exact ⟨rfl, rfl⟩

end Declaration

end DartDecoders
