import ScopeForest.Proofs.Types.Blurring
import ScopeForest.Proofs.Types.Spelling

namespace ScopeForest

open Outcome

def IsWord (text : String) : Prop :=
  text.toList ≠ [] ∧ text.toList.all (fun c ↦ c.isAlphanum || c == '_') = true

instance (text : String) : Decidable (IsWord text) :=
  inferInstanceAs (Decidable (_ ∧ _))

theorem IsWord.isName {text : String} (h : IsWord text) : IsName text := by
  have hword := List.all_eq_true.mp h.2
  refine ⟨h.1, List.all_eq_true.mpr fun c hc ↦ ?_, fun hlast ↦ ?_⟩
  · rw [isNameChar, hword c hc, Bool.true_or]
  · have hcolon := hword ':' (List.mem_of_getLast? hlast)
    cases hcolon

theorem isName_intercalate {words : List String} (hne : words ≠ []) (h : ∀ w ∈ words, IsWord w) :
    IsName ("::".intercalate words) := by
  induction words with
  | nil => exact absurd rfl hne
  | cons w words ih =>
    have hw := (h w List.mem_cons_self).isName
    cases words with
    | nil => simpa using hw
    | cons next words =>
      obtain ⟨hnonempty, hchars, hlast⟩ :=
        ih (List.cons_ne_nil _ _) fun x hx ↦ h x (List.mem_cons_of_mem w hx)
      rw [String.intercalate_cons_cons]
      refine ⟨?_, ?_, ?_⟩
      · simp [hw.1]
      · rw [String.toList_append, String.toList_append, List.all_append, List.all_append, hw.2.1,
          hchars]
        rfl
      · rw [String.toList_append, List.getLast?_append_of_ne_nil _ hnonempty]
        exact hlast

namespace Phrase

def text (p : Phrase) : String := String.ofList p.chars

theorem text_injective {p p' : Phrase} (h : p.text = p'.text) : p = p' :=
  chars_injective (String.ofList_injective h)

end Phrase

theorem Step.listChars_append (steps more : List Step) :
    Step.listChars (steps ++ more) = Step.listChars steps ++ Step.listChars more := by
  induction steps with
  | nil => rfl
  | cons s steps ih => rw [List.cons_append, Step.listChars, Step.listChars, ih, List.append_assoc]

theorem Phrase.text_add (p : Phrase) (steps : List Step) :
    (p.add steps).text = p.text ++ String.ofList (Step.listChars steps) := by
  obtain ⟨base, first⟩ := p
  rw [Phrase.add, text, text, Phrase.chars, Phrase.chars, Step.listChars_append,
    ← List.append_assoc, String.ofList_append]

theorem Qualifiers.ofList_steps (q : Qualifiers) :
    String.ofList (Step.listChars q.steps) = q.suffix := by
  obtain ⟨c, v⟩ := q
  cases c <;> cases v <;> rfl

theorem Phrase.ofList_paramChars (e : Bool) (ps : List Phrase) :
    String.ofList (Phrase.paramChars e ps) =
      ", ".intercalate (ps.map Phrase.text ++ if e then ["..."] else []) := by
  cases ps with
  | nil => cases e <;> rfl
  | cons p ps =>
    rw [Phrase.paramChars, String.ofList_append]
    induction ps generalizing p with
    | nil =>
      apply String.toList_inj.mp
      cases e <;> simp [Phrase.restChars, Phrase.text]
    | cons next ps ih =>
      have hnext := ih next
      rw [List.map_cons, List.cons_append] at hnext
      rw [Phrase.restChars, List.map_cons, List.map_cons, List.cons_append, List.cons_append,
        String.intercalate_cons_cons, ← hnext]
      apply String.toList_inj.mp
      simp [Phrase.text]

@[simp] theorem Phrase.add_mk (base : QualifiedName) (steps more : List Step) :
    (Phrase.mk base steps).add more = .mk base (steps ++ more) := rfl

@[simp] theorem Qualifiers.steps_none : Qualifiers.steps {} = [] := rfl

namespace Form

variable {name : DeclId → String} {q : Qualifiers} {label : Label} {parts : List Form}

theorem phrase_qualified : (node q label parts).phrase name none =
    ((node {} label parts).phrase name none).add q.steps := by
  rcases parts with _ | ⟨F, _ | ⟨G, rest⟩⟩ <;> cases label <;>
    simp [phrase, outerSteps]

theorem phrase_marked (h : ∀ e own, label ≠ .function e own) (m : Mark) :
    (node q label parts).phrase name (some m) =
      ((node q label parts).phrase name none).add [.pointing { mark := m }] := by
  cases label with
  | function e own => exact absurd rfl (h e own)
  | _ => rcases parts with _ | ⟨F, _ | ⟨G, rest⟩⟩ <;> simp [phrase, outerSteps]

end Form

namespace Store

def Mentions (s : Store) (d : DeclId) : Prop :=
  ∃ (t : TypeId) (node : Ty), t.get? s.types = some node ∧ node.owner? = some d

/-- Plain names that tell declarations and fundamental types apart, and nothing that a text spells
in another way: no unnamed declaration, no template and no array bound that was left as text. -/
structure PlainlyNamed (s : Store) : Prop where
  fundamental : ∀ {t : TypeId} {name : String}, t.get? s.types = some (.fundamental name) →
    IsWord name
  word : ∀ {d : DeclId} {x : Declaration}, d.get? s.decls = some x → x.parent ≠ none → IsWord x.name
  named : ∀ {d : DeclId} {x : Declaration}, d.get? s.decls = some x → x.isAnonymous = false
  general : ∀ {d : DeclId} {x : Declaration}, d.get? s.decls = some x → x.instantiates? = none
  simple : ∀ {t : TypeId} {template : DeclId} {args : List TemplateArg},
    t.get? s.types ≠ some (.instantiation template args)
  bounded : ∀ {t element : TypeId} {text : String},
    t.get? s.types ≠ some (.array element (.dependent text))
  /-- The root has no qualified name. -/
  owned : ∀ {d : DeclId} {x : Declaration}, s.Mentions d → d.get? s.decls = some x →
    x.parent ≠ none
  distinct : ∀ {d e : DeclId}, s.Mentions d → s.Mentions e →
    s.qualifiedName d = s.qualifiedName e → d = e
  apart : ∀ {t u : TypeId} {name : String} {d : DeclId} {x : Declaration},
    t.get? s.types = some (.fundamental name) → u.get? s.types = some (.declared d) →
      d.get? s.decls = some x → x.expansion? = none → s.qualifiedName d ≠ .ok name

def nameOf (s : Store) (d : DeclId) : String := (s.qualifiedName d).toOption.getD ""

variable {s : Store} {t u : TypeId} {node : Ty} {d : DeclId} {x : Declaration}
  {rank : TypeId → Nat}

section Names

variable (hs : s.Closed) (hn : s.PlainlyNamed)

include hs hn

theorem exists_pathAux {height : DeclId → Nat} (hheight : s.Ranks height) {fuel : Nat}
    (hd : d.get? s.decls = some x) (hfuel : height d < fuel) :
    ∃ path, (∀ w ∈ path, IsWord w) ∧ (x.parent ≠ none → path ≠ []) ∧
      ∀ spell below, s.pathAux spell fuel d below = .ok (path ++ below) := by
  induction fuel generalizing d x with
  | zero => omega
  | succ fuel ih =>
    cases hp : x.parent with
    | none =>
      refine ⟨[], by simp, fun h ↦ absurd rfl h, fun spell below ↦ ?_⟩
      simp [pathAux, decl_of_get? hd, hp, bind, Except.bind, pure, Except.pure]
    | some p =>
      obtain ⟨y, hy⟩ := hs.parent hd hp
      have hlt := hheight hd hp
      obtain ⟨path, hwords, -, hpath⟩ := ih hy (by omega)
      have hword := hn.word hd (by simp [hp])
      refine ⟨path ++ [x.name], ?_, by simp, fun spell below ↦ ?_⟩
      · simpa [or_imp, forall_and] using ⟨hwords, hword⟩
      · simp [pathAux, nameWith, decl_of_get? hd, hp, hn.named hd, hn.general hd, hpath, bind,
          Except.bind, pure, Except.pure]

theorem qualifiedNameWith_eq (hd : s.Mentions d) :
    IsName (s.nameOf d) ∧ ∀ spell, s.qualifiedNameWith spell d = .ok (s.nameOf d) := by
  obtain ⟨height, hheight, hbound⟩ := hs.nested
  obtain ⟨t, node, ht, hnode⟩ := hd
  obtain ⟨x, hx⟩ := hs.owner ht hnode
  obtain ⟨path, hwords, hne, hpath⟩ :=
    exists_pathAux hs hn hheight hx (Nat.lt_succ_of_le (hbound hx))
  have hall (spell : Speller) : s.qualifiedNameWith spell d = .ok ("::".intercalate path) := by
    rw [qualifiedNameWith, pathWith, hpath, List.append_nil]
    rfl
  have hname : s.nameOf d = "::".intercalate path := by
    rw [nameOf, qualifiedName, hall]
    rfl
  rw [hname]
  exact ⟨isName_intercalate (hne (hn.owned ⟨t, node, ht, hnode⟩ hx)) hwords, hall⟩

end Names

def formText (s : Store) (F : Form) : String := (F.phrase s.nameOf none).text

section Texts

variable {spell : Speller}

theorem spellAround_eq {sig : Signature} {declarator : Outcome String} {inner : String}
    {via : Option Pointing} {result : Form} {params : List Form}
    (hresult : spell true sig.returnType = .ok (s.formText result))
    (hparams : sig.parameters.mapM (spell true) = .ok (params.map s.formText))
    (hinner : declarator = .ok inner) (hvia : inner = String.ofList (viaChars via)) :
    sig.spellAround (spell true) declarator = .ok ((result.phrase s.nameOf none).add
      (.call via (Form.phrases s.nameOf params) sig.hasEllipsis :: sig.own.steps)).text := by
  have hlist : sig.spellParameters (spell true) = .ok (String.ofList
      (Phrase.paramChars sig.hasEllipsis (Form.phrases s.nameOf params))) := by
    rw [Signature.spellParameters, hparams, Phrase.ofList_paramChars, Form.phrases_eq_map,
      List.map_map]
    rfl
  have hsuffix : sig.suffix = String.ofList (Step.listChars sig.own.steps) :=
    (Qualifiers.ofList_steps _).symm
  rw [Signature.spellAround, hresult, hinner, hlist, Phrase.text_add, hsuffix, hvia]
  refine congrArg Except.ok (String.toList_inj.mp ?_)
  simp [Step.listChars, Step.chars, formText]

theorem exists_parts {sig : Signature} {parts : List Form}
    (h : ∀ v ∈ sig.children, Maps s.formText (s.form v) (spell true v))
    (hparts : sig.children.mapM s.form = .ok parts) : ∃ result params, parts = result :: params ∧
      spell true sig.returnType = .ok (s.formText result) ∧
        sig.parameters.mapM (spell true) = .ok (params.map s.formText) := by
  rw [Signature.children, List.mapM_cons] at hparts
  obtain ⟨result, hresult, hparts⟩ := bind_eq_ok hparts
  obtain ⟨params, hparams, hparts⟩ := bind_eq_ok hparts
  refine ⟨result, params, (Except.ok.inj hparts).symm, ?_, ?_⟩
  · exact h _ List.mem_cons_self result hresult
  · exact Maps.mapM_same (fun v hv ↦ h v (List.mem_cons_of_mem _ hv)) params hparams

section Linked

variable (hs : s.Linked) (hr : s.Ranking s.Expands rank)

include hs hr

theorem spellPointer_maps (m : Mark) (ht : s.HoldsType t)
    (hself : Maps s.formText (s.form t) (spell true t))
    (hinner : ∀ {v : TypeId}, rank v < rank t → s.HoldsType v →
      Maps s.formText (s.form v) (spell true v)) :
    Maps (fun F ↦ (F.phrase s.nameOf (some m)).text) (s.form t)
      (s.spellPointer spell true (String.ofList [m.char]) t) := by
  obtain ⟨u, q, node, parts, hu, hreach, hnode, -, hparts, hform⟩ := exists_head hs hr ht
  intro F hF
  rw [hform] at hF
  cases hF
  have hpointee : s.pointee true t = .ok u := by
    rw [pointee, if_pos rfl, hu]
    rfl
  have hstart {k : Ty → Outcome String} :
      (do let node ← s.ty (← s.pointee true t); k node) = k node := by
    rw [hpointee]
    simp only [bind, Except.bind, ty_of_get? hnode]
  have hplain (hlabel : ∀ e own, node.label ≠ .function e own) :
      (do return (← spell true t) ++ " " ++ String.ofList [m.char]) =
        Except.ok ((Form.node q node.label parts).phrase s.nameOf (some m)).text := by
    rw [hself _ hform, Form.phrase_marked hlabel, Phrase.text_add]
    refine congrArg Except.ok (String.toList_inj.mp ?_)
    simp [Step.listChars, Step.chars, Pointing.chars, scopeChars, formText]
  rw [spellPointer, hstart]
  cases node with
  | function sig =>
    have hchild : ∀ v ∈ sig.children, Maps s.formText (s.form v) (spell true v) := by
      intro v hv
      have hle := hr.le hreach
      have hlt := hr.lt (.child hnode hv)
      exact hinner (by omega) (hs.child hnode hv)
    obtain ⟨result, params, rfl, hresult, hparams⟩ := exists_parts hchild hparts
    have hvia : "(" ++ String.ofList [m.char] ++ ")" =
        String.ofList (viaChars (some { mark := m })) := by
      cases m <;> rfl
    have haround := spellAround_eq hresult hparams rfl hvia
    simpa [Ty.label, Form.phrase, pure, Except.pure] using haround
  | _ => exact hplain (by simp [Ty.label])

end Linked

theorem spellNode_eq (hs : s.Closed) (hr : s.Ranking s.Expands rank) (hn : s.PlainlyNamed)
    {parts : List Form} (hnode : t.get? s.types = some node) (hnone : s.unwrap node = .ok none)
    (hparts : node.children.mapM s.form = .ok parts)
    (hinner : ∀ {v : TypeId}, rank v < rank t → s.HoldsType v →
      Maps s.formText (s.form v) (spell true v)) :
    s.spellNode spell true node = .ok (s.formText (.node {} node.label parts)) := by
  have hlt {v : TypeId} (hv : v ∈ node.children) : rank v < rank t := hr.lt (.child hnode hv)
  have hchild : ∀ v ∈ node.children, Maps s.formText (s.form v) (spell true v) :=
    fun v hv ↦ hinner (hlt hv) (hs.child hnode hv)
  -- a node with one part
  have hone {v : TypeId} (hv : node.children = [v]) :
      ∃ F, parts = [F] ∧ s.form v = .ok F ∧ spell true v = .ok (s.formText F) := by
    rw [hv, List.mapM_cons] at hparts
    obtain ⟨F, hF, hrest⟩ := bind_eq_ok hparts
    cases hrest
    exact ⟨F, rfl, hF, hchild v (hv ▸ List.mem_cons_self) F hF⟩
  have hpointer {v : TypeId} (m : Mark) (hv : node.children = [v]) : ∃ F, parts = [F] ∧
      s.spellPointer spell true (String.ofList [m.char]) v =
        .ok (F.phrase s.nameOf (some m)).text := by
    obtain ⟨F, hF, hform, htext⟩ := hone hv
    have hmem : v ∈ node.children := hv ▸ List.mem_cons_self
    refine ⟨F, hF, spellPointer_maps hs.linked hr m (hs.child hnode hmem) (hchild v hmem)
      (fun hw ↦ hinner ?_) F hform⟩
    exact Nat.lt_trans hw (hlt hmem)
  have howner {d : DeclId} (hd : node.owner? = some d) :
      (QualifiedName.read (s.nameOf d)).chars = (s.nameOf d).toList ∧
        s.qualifiedNameWith spell d = .ok (s.nameOf d) := by
    obtain ⟨hname, hall⟩ := qualifiedNameWith_eq hs hn ⟨t, node, hnode, hd⟩
    exact ⟨QualifiedName.chars_read hname, hall spell⟩
  cases node with
  | fundamental name =>
    cases hparts
    have hname := QualifiedName.chars_read (hn.fundamental hnode).isName
    simp [spellNode, formText, Ty.label, Form.phrase, outerSteps, Phrase.text, Phrase.chars,
      Step.listChars, hname, pure, Except.pure]
  | declared d =>
    cases hparts
    obtain ⟨hchars, hname⟩ := howner rfl
    simp [spellNode, formText, Ty.label, Form.phrase, outerSteps, Phrase.text, Phrase.chars,
      Step.listChars, hchars, hname]
  | pointer v =>
    obtain ⟨F, rfl, htext⟩ := hpointer .pointer rfl
    rw [spellNode, show "*" = String.ofList [Mark.pointer.char] from rfl, htext]
    simp [formText, Ty.label, Form.phrase, outerSteps]
  | reference v =>
    obtain ⟨F, rfl, htext⟩ := hpointer .reference rfl
    rw [spellNode, show "&" = String.ofList [Mark.reference.char] from rfl, htext]
    simp [formText, Ty.label, Form.phrase, outerSteps]
  | const v => cases hnone
  | volatile v => cases hnone
  | array v size =>
    obtain ⟨F, rfl, -, htext⟩ := hone rfl
    have hsize : size.text = String.ofList (sizeChars size.bound?) := by
      cases size with
      | known n => exact String.ofList_toList.symm
      | unknown => rfl
      | dependent text => exact absurd hnode hn.bounded
    rw [spellNode, htext, hsize]
    refine congrArg Except.ok (String.toList_inj.mp ?_)
    simp [formText, Ty.label, Form.phrase, outerSteps, Phrase.text_add, Step.listChars, Step.chars]
  | memberPointer cls v =>
    obtain ⟨F, rfl, -, htext⟩ := hone rfl
    obtain ⟨hchars, hname⟩ := howner rfl
    rw [spellNode, htext, hname]
    refine congrArg Except.ok (String.toList_inj.mp ?_)
    simp [formText, Ty.label, Form.phrase, outerSteps, Phrase.text_add, Step.listChars, Step.chars,
      Pointing.chars, scopeChars, Mark.char, hchars]
  | function sig =>
    obtain ⟨result, params, rfl, hresult, hparams⟩ := exists_parts hchild hparts
    have hvia : "" = String.ofList (viaChars none) := rfl
    have haround := spellAround_eq hresult hparams (rfl : (return "") = Except.ok "") hvia
    simpa [spellNode, formText, Ty.label, Form.phrase] using haround
  | memberFunctionPointer cls sig =>
    obtain ⟨result, params, rfl, hresult, hparams⟩ := exists_parts hchild hparts
    obtain ⟨hchars, hname⟩ := howner rfl
    have hvia : "(" ++ s.nameOf cls ++ "::*)" =
        String.ofList (viaChars (some ⟨some (.read (s.nameOf cls)), .pointer⟩)) := by
      refine String.toList_inj.mp ?_
      simp [viaChars, Pointing.chars, scopeChars, Mark.char, hchars]
    have hinner' : (do return "(" ++ (← s.qualifiedNameWith spell cls) ++ "::*)") =
        Except.ok ("(" ++ s.nameOf cls ++ "::*)") := by
      rw [hname]
      rfl
    have haround := spellAround_eq hresult hparams hinner' hvia
    simpa [spellNode, formText, Ty.label, Form.phrase, outerSteps] using haround
  | instantiation template args => exact absurd hnode hn.simple

section Plain

variable (hs : s.Closed) (hr : s.Ranking s.Expands rank) (hn : s.PlainlyNamed)

include hs hr hn

theorem spellAux_maps {fuel : Nat} (ht : s.HoldsType t) (hfuel : rank t < fuel) :
    Maps s.formText (s.form t) (s.spellAux fuel true t) := by
  induction fuel generalizing t with
  | zero => omega
  | succ fuel ih =>
    obtain ⟨u, q, node, parts, hu, hreach, hnode, hnone, hparts, hform⟩ :=
      exists_head hs.linked hr ht
    intro F hF
    rw [hform] at hF
    cases hF
    have hle := hr.le hreach
    have htext := spellNode_eq hs hr hn hnode hnone hparts
      fun {v} hv hheld ↦ ih hheld (by omega)
    rw [formText, Form.phrase_qualified, Phrase.text_add, Qualifiers.ofList_steps]
    simp only [spellAux, hu, ty_of_get? hnode, htext, formText, bind, Except.bind, pure,
      Except.pure]

theorem spell_maps (ht : s.HoldsType t) : Maps s.formText (s.form t) (s.spell true t) := by
  have hbound := hr.bound t
  exact spellAux_maps hs hr hn ht (by omega)

end Plain

end Texts

section Reading

inductive IsBase (s : Store) : Label → Prop
  | fundamental {t : TypeId} {n : String} (ht : t.get? s.types = some (.fundamental n)) :
    IsBase s (.fundamental n)
  | declared {t : TypeId} {d : DeclId} {x : Declaration} (ht : t.get? s.types = some (.declared d))
    (hd : d.get? s.decls = some x) (hx : x.expansion? = none) : IsBase s (.declared d)

def baseName (s : Store) : Label → QualifiedName
  | .fundamental n => .read n
  | .declared d => .read (s.nameOf d)
  | _ => .read ""

structure ReadBy (s : Store) (R : Reader) : Prop where
  base : ∀ {label : Label}, s.IsBase label → R.label (s.baseName label) = label
  owner : ∀ {d : DeclId}, s.Mentions d → R.cls (.read (s.nameOf d)) = d

theorem exists_readBy (hs : s.Closed) (hn : s.PlainlyNamed) : ∃ R, s.ReadBy R := by
  have hread {a b : String} (ha : IsName a) (hb : IsName b)
      (h : QualifiedName.read a = .read b) : a = b := by
    have hchars := congrArg QualifiedName.chars h
    rw [QualifiedName.chars_read ha, QualifiedName.chars_read hb] at hchars
    exact String.toList_inj.mp hchars
  have howner : Set.InjOn (fun d ↦ QualifiedName.read (s.nameOf d)) { d | s.Mentions d } := by
    intro d hd e he h
    obtain ⟨hname, hall⟩ := qualifiedNameWith_eq hs hn hd
    obtain ⟨hname', hall'⟩ := qualifiedNameWith_eq hs hn he
    refine hn.distinct hd he ?_
    rw [qualifiedName, qualifiedName, hall, hall', hread hname hname' h]
  have hmixed {t u : TypeId} {n : String} {d : DeclId} {x : Declaration}
      (ht : t.get? s.types = some (.fundamental n)) (hu : u.get? s.types = some (.declared d))
      (hd : d.get? s.decls = some x) (hx : x.expansion? = none) :
      QualifiedName.read n ≠ .read (s.nameOf d) := by
    intro h
    obtain ⟨hname, hall⟩ := qualifiedNameWith_eq hs hn ⟨u, _, hu, rfl⟩
    refine hn.apart ht hu hd hx ?_
    rw [qualifiedName, hall, hread (hn.fundamental ht).isName hname h]
  have hlabels : Set.InjOn s.baseName { label | s.IsBase label } := by
    intro label hlabel label' hlabel' h
    cases hlabel with
    | fundamental ht =>
      cases hlabel' with
      | fundamental hu => rw [hread (hn.fundamental ht).isName (hn.fundamental hu).isName h]
      | declared hu hd hx => exact absurd h (hmixed ht hu hd hx)
    | declared ht hd hx =>
      cases hlabel' with
      | fundamental hu => exact absurd h.symm (hmixed hu ht hd hx)
      | declared hu => rw [howner ⟨_, _, ht, rfl⟩ ⟨_, _, hu, rfl⟩ h]
  have : Nonempty Label := ⟨.pointer⟩
  have : Nonempty DeclId := ⟨⟨0⟩⟩
  refine ⟨⟨Function.invFunOn s.baseName { label | s.IsBase label },
    Function.invFunOn (fun d ↦ .read (s.nameOf d)) { d | s.Mentions d }⟩, ?_, ?_⟩
  · exact fun hlabel ↦ hlabels.leftInvOn_invFunOn hlabel
  · exact fun hd ↦ howner.leftInvOn_invFunOn hd

theorem regular_form {R : Reader} {F : Form} (hs : s.Linked) (hr : s.Ranking s.Expands rank)
    (hn : s.PlainlyNamed) (hR : s.ReadBy R) (ht : s.HoldsType t) (hF : s.form t = .ok F) :
    F.Regular s.nameOf R := by
  induction hrank : rank t using Nat.strong_induction_on generalizing t F with
  | _ n ih =>
    obtain ⟨u, q, node, parts, -, hreach, hnode, hnone, hparts, hform⟩ := exists_head hs hr ht
    rw [hform] at hF
    cases hF
    have hall := mapM_eq_ok hparts
    have hpart : ∀ G ∈ parts, G.Regular s.nameOf R := by
      intro G hG
      obtain ⟨v, hv, hG⟩ := exists_of_mem_right hall hG
      have hle := hr.le hreach
      have hlt := hr.lt (.child hnode hv)
      exact ih (rank v) (by omega) (hs.child hnode hv) hG rfl
    cases node with
    | fundamental name =>
      cases hall
      exact .fundamental (hR.base (.fundamental hnode))
    | declared d =>
      cases hall
      obtain ⟨x, hx, hnone⟩ := bind_eq_ok hnone
      have hexpansion : x.expansion? = none := Option.map_eq_none_iff.mp (Except.ok.inj hnone)
      exact .declared (hR.base (.declared hnode (get?_of_decl hx) hexpansion))
    | pointer v =>
      cases hall with
      | cons _ hrest =>
        cases hrest
        exact .indirect .pointer (hpart _ List.mem_cons_self)
    | reference v =>
      cases hall with
      | cons _ hrest =>
        cases hrest
        exact .indirect .reference (hpart _ List.mem_cons_self)
    | const v => cases hnone
    | volatile v => cases hnone
    | array v size =>
      have hsize : ArraySize.ofBound size.bound? = size := by
        cases size with
        | known | unknown => rfl
        | dependent text => exact absurd hnode hn.bounded
      cases hall with
      | cons _ hrest =>
        cases hrest
        exact .array hsize (hpart _ List.mem_cons_self)
    | memberPointer cls v =>
      cases hall with
      | cons _ hrest =>
        cases hrest
        exact .memberPointer (hR.owner ⟨u, _, hnode, rfl⟩) (hpart _ List.mem_cons_self)
    | function sig =>
      cases hall with
      | cons _ hrest =>
        obtain ⟨hresult, hparams⟩ := List.forall_mem_cons.mp hpart
        exact .function hresult hparams
    | memberFunctionPointer cls sig =>
      cases hall with
      | cons _ hrest =>
        obtain ⟨hresult, hparams⟩ := List.forall_mem_cons.mp hpart
        exact .memberFunctionPointer (hR.owner ⟨u, _, hnode, rfl⟩) hresult hparams
    | instantiation template args => exact absurd hnode hn.simple

end Reading

/-- Every type has a canonical text, and two of them have the same one if and only if they are equal
up to what a text does not tell. -/
structure TellsApart (s : Store) : Prop where
  returns : ∀ {t}, s.HoldsType t → Returns (s.spell true t)
  same_text_iff : ∀ {a b F G}, s.HoldsType a → s.HoldsType b → s.form a = .ok F → s.form b = .ok G →
    (s.spell true a = s.spell true b ↔ F.blur false = G.blur false)
  equal_iff : ∀ {a b F G}, s.HoldsType a → s.HoldsType b → s.form a = .ok F → s.form b = .ok G →
    F.Plain → G.Plain → (s.spell true a = s.spell true b ↔ s.structuralEquals a b = .ok true)

theorem tellsApart (hs : s.Closed) (h : s.Acyclic) (hn : s.PlainlyNamed) : s.TellsApart := by
  obtain ⟨rank, hr⟩ := exists_rank hs.expands h
  obtain ⟨R, hR⟩ := exists_readBy hs hn
  have hsame {a b : TypeId} {F G : Form} (ha : s.HoldsType a) (hb : s.HoldsType b)
      (hF : s.form a = .ok F) (hG : s.form b = .ok G) :
      s.spell true a = s.spell true b ↔ F.blur false = G.blur false := by
    have hregular := regular_form hs.linked hr hn hR ha hF
    have hregular' := regular_form hs.linked hr hn hR hb hG
    rw [spell_maps hs hr hn ha F hF, spell_maps hs hr hn hb G hG, Except.ok.injEq,
      ← hregular.phrase_eq_iff hregular']
    exact ⟨Phrase.text_injective, congrArg Phrase.text⟩
  constructor
  case returns =>
    intro t ht
    obtain ⟨F, hF⟩ := form_returns hs.linked hr ht
    exact ⟨_, spell_maps hs hr hn ht F hF⟩
  case same_text_iff => exact hsame
  case equal_iff =>
    intro a b F G ha hb hF hG hplain hplain'
    rw [hsame ha hb hF hG, structuralEquals_eq_true_iff hs.linked hr ha hb, hF, hG, Except.ok.injEq,
      hplain.blur_eq, hplain'.blur_eq]

end Store

namespace Sample

/-- The typedef `f` stands for `int (A::*)()`. -/
def methods : Store where
  decls :=
    [{ id := ⟨1⟩, kind := .namespaceDecl, name := "root", unit := ⟨1⟩, externalId := "root",
        details := .scope [⟨2⟩, ⟨3⟩] },
      member ⟨2⟩ "A" .classDecl (.cls { key := .classKey }),
      member ⟨3⟩ "f" .typedef (.typedef ⟨2⟩)]
  types :=
    [.fundamental "int", .memberFunctionPointer ⟨2⟩ { returnType := ⟨1⟩, parameters := [] },
      .const ⟨2⟩,
      .memberFunctionPointer ⟨2⟩ { returnType := ⟨1⟩, parameters := [], isConst := true },
      .declared ⟨3⟩, .const ⟨5⟩, .declared ⟨2⟩]

theorem methods_closed : methods.Closed :=
  Store.closed_of_lt (by decide) (by decide)

theorem methods_acyclic : methods.Acyclic :=
  (Store.linked_and_acyclic_of_lt (by decide)).2

theorem methods_plainlyNamed : methods.PlainlyNamed where
  fundamental ht := by
    obtain rfl : _ = "int" := by simpa [methods] using Id.mem_of_get? ht
    decide
  word hd hp := by
    have hall : ∀ x ∈ methods.decls, x.parent ≠ none → IsWord x.name := by decide
    exact hall _ (Id.mem_of_get? hd) hp
  named hd := by
    have hall : ∀ x ∈ methods.decls, x.isAnonymous = false := by decide
    exact hall _ (Id.mem_of_get? hd)
  general hd := by
    have hall : ∀ x ∈ methods.decls, x.instantiates? = none := by decide
    exact hall _ (Id.mem_of_get? hd)
  simple ht := by
    have hmem := Id.mem_of_get? ht
    simp [methods] at hmem
  bounded ht := by
    have hmem := Id.mem_of_get? ht
    simp [methods] at hmem
  owned := by
    rintro d x ⟨t, node, ht, hnode⟩ hd
    have hall : ∀ node ∈ methods.types, ∀ d ∈ node.owner?, ∀ x ∈ d.get? methods.decls,
        x.parent ≠ none := by
      decide
    exact hall _ (Id.mem_of_get? ht) _ hnode _ hd
  distinct := by
    rintro d e ⟨t, node, ht, hnode⟩ ⟨u, node', hu, hnode'⟩ h
    have hall : ∀ node ∈ methods.types, ∀ d ∈ node.owner?, ∀ node' ∈ methods.types,
        ∀ e ∈ node'.owner?,
          (methods.qualifiedName d).toOption = (methods.qualifiedName e).toOption → d = e := by
      decide
    exact hall _ (Id.mem_of_get? ht) _ hnode _ (Id.mem_of_get? hu) _ hnode' (congrArg _ h)
  apart := by
    intro t u name d x ht hu hd hx
    obtain rfl : name = "int" := by simpa [methods] using Id.mem_of_get? ht
    obtain rfl | rfl : d = ⟨3⟩ ∨ d = ⟨2⟩ := by simpa [methods] using Id.mem_of_get? hu
    · cases hd
      cases hx
    · have hne : (methods.qualifiedName ⟨2⟩).toOption ≠ some "int" := by decide
      exact fun h ↦ hne (congrArg _ h)

end Sample

open Sample

theorem tellsApart_sample : methods.Closed ∧ methods.Acyclic ∧ methods.PlainlyNamed ∧
    methods.TellsApart ∧ methods.spell true ⟨3⟩ = methods.spell true ⟨6⟩ ∧
      methods.spell true ⟨2⟩ ≠ methods.spell true ⟨4⟩ := by
  have htells := Store.tellsApart methods_closed methods_acyclic methods_plainlyNamed
  refine ⟨methods_closed, methods_acyclic, methods_plainlyNamed, htells, ?_, fun h ↦ ?_⟩
  · exact (htells.same_text_iff ⟨_, rfl⟩ ⟨_, rfl⟩ rfl rfl).mpr rfl
  · have hblur := (htells.same_text_iff ⟨_, rfl⟩ ⟨_, rfl⟩ rfl rfl).mp h
    cases hblur

/-- A constant pointer to a member function is spelled like a pointer to a constant one. -/
theorem same_text_methods : methods.Closed ∧ methods.Acyclic ∧ methods.PlainlyNamed ∧
    methods.spell true ⟨3⟩ = .ok "int (A::*)() const" ∧
      methods.spell true ⟨4⟩ = .ok "int (A::*)() const" ∧
        methods.structuralEquals ⟨3⟩ ⟨4⟩ = .ok false := by
  have hlinked := methods_closed.linked
  obtain ⟨rank, hr⟩ := Store.exists_rank hlinked.expands methods_acyclic
  have htext {t : TypeId} {F : Form} (ht : methods.HoldsType t) (hF : methods.form t = .ok F) :
      methods.spell true t = .ok (methods.formText F) :=
    Store.spell_maps methods_closed hr methods_plainlyNamed ht F hF
  refine ⟨methods_closed, methods_acyclic, methods_plainlyNamed, ?_, ?_, ?_⟩
  · rw [htext ⟨_, rfl⟩ rfl]
    rfl
  · rw [htext ⟨_, rfl⟩ rfl]
    rfl
  · refine Store.structuralEquals_eq_false hlinked hr ⟨_, rfl⟩ ⟨_, rfl⟩ fun h ↦ ?_
    cases h

end ScopeForest
