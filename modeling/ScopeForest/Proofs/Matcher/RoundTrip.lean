import ScopeForest.Matcher.Json
import ScopeForest.Proofs.Json.RoundTrip

namespace ScopeForest

open Json

theorem DeclKind.ofName?_name (kind : DeclKind) : DeclKind.ofName? kind.name = some kind := by
  cases kind <;> rfl

theorem Access.ofName?_name (access : Access) : Access.ofName? access.name = some access := by
  cases access <;> rfl

theorem Id.ofJson?_toJson {k : IdKind} {i : Id k} (h : i.val ≤ Text.maxWord32) :
    Id.ofJson? i.toJson = some i := by
  rw [Id.ofJson?, Id.toJson, nat?, if_pos h]
  rfl

theorem nullableText?_ofOption (text : Option String) :
    nullableText? (ofOption (text.map str)) = some text := by
  cases text <;> rfl

namespace Json

variable {v : Json}

theorem plain_ofOption (text : Option String) : (ofOption (text.map str)).Plain := by
  cases text with
  | none => exact .null
  | some s => exact .str s

theorem Plain.filter_read? {limit : Nat} (h : v.Plain) :
    (read? v.text).filter (fun w ↦ decide (w.depth ≤ limit)) =
      if v.depth ≤ limit then some v else none := by
  rw [h.read?_text, Option.filter_some]
  simp only [decide_eq_true_eq]

end Json

mutual

theorem Matcher.plain_toJson (m : Matcher) : m.toJson.Plain := by
  cases m with
  | anything | isVirtual | isPureVirtual | isStatic | isConst => exact .str _
  | typeMatches t | returnType t | hasParameter t => exact (TypeMatcher.plain_toJson t).tagged
  | hasBaseClass m | parentIs m | neg m => exact (Matcher.plain_toJson m).tagged
  | conj ms | disj ms => exact (Plain.arr (Matcher.plain_listToJson ms)).tagged
  | parameterCount n => exact (Plain.nat n).tagged
  | _ => exact (Plain.str _).tagged

theorem Matcher.plain_listToJson (ms : List Matcher) : ∀ v ∈ Matcher.listToJson ms, v.Plain := by
  cases ms with
  | nil => exact fun v hv ↦ absurd hv List.not_mem_nil
  | cons m ms =>
    intro v hv
    rcases List.mem_cons.mp hv with rfl | hv
    · exact Matcher.plain_toJson m
    · exact Matcher.plain_listToJson ms v hv

theorem TypeMatcher.plain_toJson (m : TypeMatcher) : m.toJson.Plain := by
  cases m with
  | any | void => exact .str _
  | fundamental name => exact (plain_ofOption name).tagged
  | pointerTo m | referenceTo m | arrayOf m | const m | volatile m | neg m =>
    exact (TypeMatcher.plain_toJson m).tagged
  | declared m => exact (Matcher.plain_toJson m).tagged
  | equalTo t => exact (Plain.nat t.val).tagged
  | spelled text => exact (Plain.str text).tagged
  | conj ms | disj ms => exact (Plain.arr (TypeMatcher.plain_listToJson ms)).tagged

theorem TypeMatcher.plain_listToJson (ms : List TypeMatcher) :
    ∀ v ∈ TypeMatcher.listToJson ms, v.Plain := by
  cases ms with
  | nil => exact fun v hv ↦ absurd hv List.not_mem_nil
  | cons m ms =>
    intro v hv
    rcases List.mem_cons.mp hv with rfl | hv
    · exact TypeMatcher.plain_toJson m
    · exact TypeMatcher.plain_listToJson ms v hv

end

mutual

/-- Counts have no more than 64 bits, and type ids no more than 32. -/
def Matcher.WordSized : Matcher → Prop
  | .parameterCount n => n ≤ Text.maxWord64
  | .typeMatches type | .returnType type | .hasParameter type => type.WordSized
  | .hasBaseClass m | .parentIs m | .neg m => m.WordSized
  | .conj ms | .disj ms => Matcher.AllWordSized ms
  | _ => True

def Matcher.AllWordSized : List Matcher → Prop
  | [] => True
  | m :: ms => m.WordSized ∧ Matcher.AllWordSized ms

def TypeMatcher.WordSized : TypeMatcher → Prop
  | .equalTo t => t.val ≤ Text.maxWord32
  | .declared m => m.WordSized
  | .pointerTo m | .referenceTo m | .arrayOf m | .const m | .volatile m | .neg m => m.WordSized
  | .conj ms | .disj ms => TypeMatcher.AllWordSized ms
  | _ => True

def TypeMatcher.AllWordSized : List TypeMatcher → Prop
  | [] => True
  | m :: ms => m.WordSized ∧ TypeMatcher.AllWordSized ms

end

mutual

theorem Matcher.ofJson?_toJson (m : Matcher) (h : m.WordSized) :
    Matcher.ofJson? m.toJson = some m := by
  cases m with
  | nameMatches p =>
    exact congrArg (Option.map Matcher.nameMatches) p.ofSource?_source
  | kindIs kind => exact congrArg (Option.map Matcher.kindIs) kind.ofName?_name
  | accessIs access => exact congrArg (Option.map Matcher.accessIs) access.ofName?_name
  | typeMatches t =>
    exact congrArg (Option.map Matcher.typeMatches) (TypeMatcher.ofJson?_toJson t h)
  | returnType t =>
    exact congrArg (Option.map Matcher.returnType) (TypeMatcher.ofJson?_toJson t h)
  | hasParameter t =>
    exact congrArg (Option.map Matcher.hasParameter) (TypeMatcher.ofJson?_toJson t h)
  | parameterCount n => exact congrArg (Option.map Matcher.parameterCount) (if_pos h)
  | hasBaseClass m =>
    exact congrArg (Option.map Matcher.hasBaseClass) (Matcher.ofJson?_toJson m h)
  | parentIs m => exact congrArg (Option.map Matcher.parentIs) (Matcher.ofJson?_toJson m h)
  | conj ms => exact congrArg (Option.map Matcher.conj) (Matcher.listOfJson?_listToJson ms h)
  | disj ms => exact congrArg (Option.map Matcher.disj) (Matcher.listOfJson?_listToJson ms h)
  | neg m => exact congrArg (Option.map Matcher.neg) (Matcher.ofJson?_toJson m h)
  | _ => rfl

theorem Matcher.listOfJson?_listToJson (ms : List Matcher) (h : Matcher.AllWordSized ms) :
    Matcher.listOfJson? (Matcher.listToJson ms) = some ms := by
  cases ms with
  | nil => rfl
  | cons m ms =>
    rw [Matcher.listToJson, Matcher.listOfJson?, Matcher.ofJson?_toJson m h.1,
      Matcher.listOfJson?_listToJson ms h.2]
    rfl

theorem TypeMatcher.ofJson?_toJson (m : TypeMatcher) (h : m.WordSized) :
    TypeMatcher.ofJson? m.toJson = some m := by
  cases m with
  | fundamental name =>
    exact congrArg (Option.map TypeMatcher.fundamental) (nullableText?_ofOption name)
  | pointerTo m =>
    exact congrArg (Option.map TypeMatcher.pointerTo) (TypeMatcher.ofJson?_toJson m h)
  | referenceTo m =>
    exact congrArg (Option.map TypeMatcher.referenceTo) (TypeMatcher.ofJson?_toJson m h)
  | arrayOf m => exact congrArg (Option.map TypeMatcher.arrayOf) (TypeMatcher.ofJson?_toJson m h)
  | const m => exact congrArg (Option.map TypeMatcher.const) (TypeMatcher.ofJson?_toJson m h)
  | volatile m =>
    exact congrArg (Option.map TypeMatcher.volatile) (TypeMatcher.ofJson?_toJson m h)
  | declared m => exact congrArg (Option.map TypeMatcher.declared) (Matcher.ofJson?_toJson m h)
  | equalTo t => exact congrArg (Option.map TypeMatcher.equalTo) (Id.ofJson?_toJson h)
  | conj ms =>
    exact congrArg (Option.map TypeMatcher.conj) (TypeMatcher.listOfJson?_listToJson ms h)
  | disj ms =>
    exact congrArg (Option.map TypeMatcher.disj) (TypeMatcher.listOfJson?_listToJson ms h)
  | neg m => exact congrArg (Option.map TypeMatcher.neg) (TypeMatcher.ofJson?_toJson m h)
  | _ => rfl

theorem TypeMatcher.listOfJson?_listToJson (ms : List TypeMatcher)
    (h : TypeMatcher.AllWordSized ms) :
    TypeMatcher.listOfJson? (TypeMatcher.listToJson ms) = some ms := by
  cases ms with
  | nil => rfl
  | cons m ms =>
    rw [TypeMatcher.listToJson, TypeMatcher.listOfJson?, TypeMatcher.ofJson?_toJson m h.1,
      TypeMatcher.listOfJson?_listToJson ms h.2]
    rfl

end

/-- Texts that nest too deeply are refused, and all others give back the matcher that was written,
whatever its names, patterns and numbers are. -/
theorem matchers_read_back :
    (∀ m : Matcher, m.WordSized → Matcher.ofText? m.jsonText =
      if m.toJson.depth ≤ Matcher.nestingLimit then some m else none) ∧
    ∀ m : TypeMatcher, m.WordSized → TypeMatcher.ofText? m.jsonText =
      if m.toJson.depth ≤ Matcher.nestingLimit then some m else none := by
  constructor
  · intro m hm
    rw [Matcher.ofText?, Matcher.jsonText, m.plain_toJson.filter_read?]
    split
    next => exact m.ofJson?_toJson hm
    next => rfl
  · intro m hm
    rw [TypeMatcher.ofText?, TypeMatcher.jsonText, m.plain_toJson.filter_read?]
    split
    next => exact m.ofJson?_toJson hm
    next => rfl

def Sample.quoting (p : NamePattern) : Matcher :=
  .conj [.nameMatches p, .nameEquals "\"\\\n\x01é😀", .parameterCount Text.maxWord64,
    .neg (.typeMatches (.disj [.fundamental none, .equalTo ⟨Text.maxWord32⟩]))]

theorem matchers_read_back_sample : ∃ p : NamePattern, p.source = "^\"+$" ∧
    (Sample.quoting p).WordSized ∧
    Matcher.ofText? (Sample.quoting p).jsonText = some (Sample.quoting p) ∧
      TypeMatcher.ofText? (TypeMatcher.declared (Sample.quoting p)).jsonText =
        some (.declared (Sample.quoting p)) := by
  have hsome : (Pattern.read? "^\"+$").isSome := by decide +kernel
  obtain ⟨regex, hregex⟩ := Option.isSome_iff_exists.mp hsome
  have hsized (p : NamePattern) : (Sample.quoting p).WordSized :=
    ⟨trivial, trivial, Nat.le_refl _, ⟨trivial, Nat.le_refl _, trivial⟩, trivial⟩
  refine ⟨⟨_, regex, hregex⟩, rfl, hsized _, ?_, ?_⟩
  · exact (matchers_read_back.1 _ (hsized _)).trans (if_pos (Nat.le_of_ble_eq_true rfl))
  · exact (matchers_read_back.2 (.declared _) (hsized _)).trans (if_pos (Nat.le_of_ble_eq_true rfl))

end ScopeForest
