import Lorepia.Prompt.Validate

/-!
# What a template renders to

`scanTemplate_splits` cuts every template the validator accepts into literals and variables, and
shows that the renderer visits exactly these parts; what it makes of them is a fact about lists
(`fill_eq`). Values are appended to the output and never scanned.
-/

namespace Lorepia.Prompt

/-- Each item with the literal before it, where `value` gives the item's text. -/
def spell {α : Type} (value : α → String) : List (String × α) → String
  | [] => ""
  | (literal, item) :: parts => literal ++ value item ++ spell value parts

def Literal (text : String) : Prop := ¬ ['$', '{'] <:+: text.toList

/-- `parts` and `last` are the literals and variables of a template, in order. -/
structure Splits (template : String) (parts : List (String × String)) (last : String) : Prop where
  text : spell (fun name => "$\x7b" ++ name ++ "\x7d") parts ++ last = template
  names : ∀ part ∈ parts, validateVariableName part.2.toList = true
  literals : ∀ part ∈ parts, Literal part.1
  last : Literal last

def bounded (text : String) : Result String := appendBounded "" text

/-- The two outcomes of rendering: every variable has a value, or `name` is the first without. -/
def Renders (lookup : String → Result String) (parts : List (String × String)) (last : String)
    (result : Result String) : Prop :=
  (∃ value : String → String, (∀ part ∈ parts, lookup part.2 = .ok (value part.2)) ∧
    result = bounded (spell value parts ++ last)) ∨
  ∃ (value : String → String) (earlier later : List (String × String)) (literal name : String),
    parts = earlier ++ (literal, name) :: later ∧
    (∀ part ∈ earlier, lookup part.2 = .ok (value part.2)) ∧
    lookup name = .error (.unknownVariable name) ∧
    result = bounded (spell value earlier ++ literal) >>= fun _ => .error (.unknownVariable name)

/-! ## Filling in the parts -/

/-- What the loop of the renderer does on the parts of a template. -/
def fill (lookup : String → Result String) : List (String × String) → String → String → Result String
  | [], last, output => appendBounded output last
  | (literal, name) :: parts, last, output => do
    let output ← appendBounded output literal
    let value ← lookup name
    let output ← appendBounded output value
    fill lookup parts last output

theorem appendBounded_bind (output a b : String) :
    (appendBounded output a >>= fun output => appendBounded output b) = appendBounded output (a ++ b) := by
  unfold appendBounded ensure
  simp only [String.utf8ByteSize_append]
  by_cases ha : output.utf8ByteSize + a.utf8ByteSize ≤ maxRenderedTextBytes
  · simp [ha, String.append_assoc, Nat.add_assoc, bind, Except.bind]
  · have hb : ¬ output.utf8ByteSize + (a.utf8ByteSize + b.utf8ByteSize) ≤ maxRenderedTextBytes := by omega
    simp [ha, hb, bind, Except.bind]

theorem fill_append {lookup : String → Result String} {value : String → String}
    (parts : List (String × String)) (last : String) :
    ∀ (earlier : List (String × String)) (output : String), output.utf8ByteSize ≤ maxRenderedTextBytes →
      (∀ part ∈ earlier, lookup part.2 = .ok (value part.2)) →
      fill lookup (earlier ++ parts) last output =
        appendBounded output (spell value earlier) >>= fill lookup parts last
  | [], output, hout, _ => by
    simp [spell, appendBounded, ensure, hout, bind, Except.bind]
  | (literal, name) :: earlier, output, _, hvalue => by
    have hrest : ∀ part ∈ earlier, lookup part.2 = .ok (value part.2) :=
      fun part hmem => hvalue part (by simp [hmem])
    -- both sides append the literal and the value first
    rw [List.cons_append, fill, spell, ← appendBounded_bind, ← appendBounded_bind,
      hvalue (literal, name) (by simp)]
    simp only [bind_assoc]
    congr 1
    funext next
    simp only [bind, Except.bind]
    cases happ : appendBounded next (value name) with
    | error e => rfl
    | ok text =>
      have hsize : text.utf8ByteSize ≤ maxRenderedTextBytes := by
        unfold appendBounded at happ
        simp only [except_bind_ok, ensure_ok, Except.ok.injEq] at happ
        obtain ⟨-, hle, rfl⟩ := happ
        simpa using hle
      exact fill_append parts last earlier text hsize hrest

theorem lookupVariable_error {vars : List (String × String)} {reserved : Option (String × String)}
    {name : String} {e : PromptError} (h : lookupVariable vars reserved name = .error e) :
    e = .unknownVariable name := by
  unfold lookupVariable at h
  split at h
  · cases h
  · split at h <;> cases h
    rfl

theorem fill_renders (vars : List (String × String)) (reserved : Option (String × String))
    (parts : List (String × String)) (last : String) :
    Renders (lookupVariable vars reserved) parts last
      (fill (lookupVariable vars reserved) parts last "") := by
  generalize hlookup : lookupVariable vars reserved = lookup
  let value : String → String := fun name => (lookup name).toOption.getD ""
  have hvalue : ∀ name, (lookup name).toBool = true → lookup name = .ok (value name) := by
    intro name h
    obtain ⟨text, htext⟩ := exists_ok_of_toBool h
    simp [value, htext, Except.toOption]
  have hempty : "".utf8ByteSize ≤ maxRenderedTextBytes := by decide
  cases hfind : parts.find? fun part => !(lookup part.2).toBool with
  | none =>
    have hall : ∀ part ∈ parts, lookup part.2 = .ok (value part.2) := fun part hmem =>
      hvalue _ (by simpa using List.find?_eq_none.mp hfind part hmem)
    refine .inl ⟨value, hall, ?_⟩
    rw [← List.append_nil parts, fill_append [] last parts "" hempty hall, List.append_nil]
    exact appendBounded_bind "" _ last
  | some part =>
    obtain ⟨hpart, earlier, later, rfl, hearlier⟩ := List.find?_eq_some_iff_append.mp hfind
    obtain ⟨literal, name⟩ := part
    have hbefore : ∀ part ∈ earlier, lookup part.2 = .ok (value part.2) := fun part hmem =>
      hvalue _ (by simpa using hearlier part hmem)
    have hmissing : lookup name = .error (.unknownVariable name) := by
      cases hname : lookup name with
      | ok text => simp [hname, Except.toBool] at hpart
      | error e =>
        rw [← hlookup] at hname
        rw [lookupVariable_error hname]
    refine .inr ⟨value, earlier, later, literal, name, rfl, hbefore, hmissing, ?_⟩
    rw [fill_append _ last earlier "" hempty hbefore, bounded, ← appendBounded_bind, bind_assoc]
    simp only [fill, hmissing]
    rfl

/-! ## The two scanners -/

theorem scanTemplate_name {field : String} {cs name : List Char} {names : List String}
    (h : scanTemplate field cs (some name) = .ok names) :
    ∃ more rest others, cs = more ++ '}' :: rest ∧ validateVariableName (name ++ more) = true ∧
      scanTemplate field rest none = .ok others ∧ names = String.ofList (name ++ more) :: others ∧
      ∀ vars reserved literal output, renderFrom vars reserved cs (some name) literal output =
        lookupVariable vars reserved (String.ofList (name ++ more)) >>= fun value =>
          appendBounded output value >>= renderFrom vars reserved rest none [] := by
  induction cs generalizing name with
  | nil => cases h
  | cons c cs ih =>
    by_cases hc : c = '}'
    · subst hc
      simp only [scanTemplate, except_bind_ok, ensure_ok, Except.ok.injEq] at h
      obtain ⟨-, hname, others, hothers, rfl⟩ := h
      refine ⟨[], cs, others, rfl, by simpa using hname, hothers, by simp, fun vars reserved literal output => ?_⟩
      simp [renderFrom, ensure, hname, bind, Except.bind]
    · rw [scanTemplate.eq_4 field c cs name hc] at h
      obtain ⟨more, rest, others, rfl, hname, hothers, rfl, hrender⟩ := ih h
      refine ⟨c :: more, rest, others, rfl, by simpa using hname, hothers, by simp,
        fun vars reserved literal output => ?_⟩
      rw [renderFrom.eq_4 _ _ _ _ _ _ _ hc, hrender]
      simp

theorem literal_concat {literal rest : List Char} {c : Char}
    (h : ¬ ['$', '{'] <:+: literal ++ [c]) (hc : ¬ ['$', '{'] <+: c :: rest) :
    ¬ ['$', '{'] <:+: literal ++ [c] ++ rest.take 1 := by
  cases rest with
  | nil => simpa using h
  | cons d rest =>
    simp only [List.take_succ_cons, List.take_zero, List.infix_concat_iff, not_or]
    refine ⟨fun hsuffix => hc ?_, by simpa [List.infix_concat_iff] using h⟩
    rw [← List.reverse_prefix] at hsuffix
    simp at hsuffix ⊢
    exact ⟨hsuffix.2, hsuffix.1⟩

theorem scanTemplate_splits {field : String} {cs literal : List Char} {names : List String}
    (h : scanTemplate field cs none = .ok names) (hliteral : ¬ ['$', '{'] <:+: literal ++ cs.take 1) :
    ∃ parts last, Splits (String.ofList (literal ++ cs)) parts last ∧ parts.map Prod.snd = names ∧
      ∀ vars reserved output, renderFrom vars reserved cs none literal output =
        fill (lookupVariable vars reserved) parts last output := by
  -- strong induction: a variable takes several characters at once
  induction hn : cs.length using Nat.strong_induction_on generalizing cs literal names with
  | _ n ih =>
  subst hn
  rcases cs with _ | ⟨c, cs⟩
  · cases h
    exact ⟨[], String.ofList literal, ⟨by simp [spell], by simp, by simp, by simpa [Literal] using hliteral⟩,
      rfl, fun _ _ _ => by simp [renderFrom, fill]⟩
  by_cases hopen : ['$', '{'] <+: c :: cs
  · obtain ⟨inner, hinner⟩ := hopen
    obtain ⟨rfl, rfl⟩ : c = '$' ∧ cs = '{' :: inner := by simpa [eq_comm] using hinner
    rw [scanTemplate] at h
    obtain ⟨name, rest, others, rfl, hname, hothers, rfl, hrender⟩ := scanTemplate_name h
    obtain ⟨parts, last, hsplits, hnames, hfill⟩ := @ih rest.length (by simp; omega) rest [] others hothers
      (fun hinfix => by simpa using hinfix.length_le) rfl
    refine ⟨(String.ofList literal, String.ofList name) :: parts, last, ⟨?_, ?_, ?_, hsplits.last⟩, by simp [hnames], ?_⟩
    · have htext := hsplits.text
      rw [spell, String.append_assoc, htext]
      apply String.toList_injective
      simp
    · simpa using ⟨hname, fun a b => hsplits.names (a, b)⟩
    · have hclean : Literal (String.ofList literal) := by
        simp only [List.take_succ_cons, List.take_zero, List.infix_concat_iff, not_or] at hliteral
        simpa [Literal] using hliteral.2
      simpa using ⟨hclean, fun a b => hsplits.literals (a, b)⟩
    · intro vars reserved output
      rw [renderFrom, fill]
      congr 1
      funext next
      rw [hrender]
      congr 1
      funext value
      congr 1
      funext text
      exact hfill vars reserved text
  · have hplain : ∀ rest, c = '$' → cs = '{' :: rest → False := by
      rintro rest rfl rfl
      exact hopen ⟨rest, rfl⟩
    rw [scanTemplate.eq_6 _ _ _ hplain] at h
    obtain ⟨parts, last, hsplits, hnames, hfill⟩ := @ih cs.length (by simp) cs (literal ++ [c]) names h
      (literal_concat (by simpa using hliteral) hopen) rfl
    refine ⟨parts, last, by simpa using hsplits, hnames, fun vars reserved output => ?_⟩
    rw [← hfill, renderFrom.eq_6 _ _ _ _ _ _ hplain]

theorem exists_once {name : String} {parts : List (String × String)}
    (h : ((parts.map Prod.snd).filter (· = name)).length = 1) :
    ∃ before literal after, parts = before ++ (literal, name) :: after ∧
      ∀ part ∈ before ++ after, part.2 ≠ name := by
  induction parts with
  | nil => simp at h
  | cons part parts ih =>
    obtain ⟨literal, first⟩ := part
    by_cases hfirst : first = name
    · subst hfirst
      refine ⟨[], literal, parts, rfl, fun part hpart heq => ?_⟩
      simp only [List.map_cons, List.filter_cons_of_pos, decide_true, List.length_cons, Nat.add_eq_right,
        List.length_eq_zero_iff, List.filter_eq_nil_iff] at h
      exact h part.2 (List.mem_map_of_mem (by simpa using hpart)) (by simpa using heq)
    · obtain ⟨before, at_, after, rfl, hothers⟩ := ih (by simpa [hfirst] using h)
      exact ⟨(literal, first) :: before, at_, after, rfl, by simpa [hfirst] using hothers⟩

theorem spell_append {α : Type} (value : α → String) (a b : List (String × α)) :
    spell value (a ++ b) = spell value a ++ spell value b := by
  induction a with
  | nil => simp [spell]
  | cons part a ih => simp [spell, ih, String.append_assoc]

theorem spell_congr {f g : String → String} {parts : List (String × String)}
    (h : ∀ part ∈ parts, f part.2 = g part.2) : spell f parts = spell g parts := by
  induction parts with
  | nil => rfl
  | cons part parts ih =>
    rw [spell, spell, h part (by simp), ih fun other hmem => h other (by simp [hmem])]

theorem scanTemplate_field (other : String) {field : String} {cs : List Char} {st : Option (List Char)}
    {names : List String} (h : scanTemplate field cs st = .ok names) :
    scanTemplate other cs st = .ok names := by
  fun_induction scanTemplate field cs st generalizing names with
  | case1 => exact h
  | case2 => cases h
  | case3 rest name ih =>
    simp only [except_bind_ok, ensure_ok, Except.ok.injEq] at h
    obtain ⟨-, hname, others, hothers, rfl⟩ := h
    simp [scanTemplate, ensure, hname, ih hothers, bind, Except.bind]
  | case4 c rest name hc ih => rw [scanTemplate.eq_4 _ _ _ _ hc, ih h]
  | case5 rest ih => rw [scanTemplate, ih h]
  | case6 c rest hc ih => rw [scanTemplate.eq_6 _ _ _ hc, ih h]

/-- An accepted template is a list of literals and variables, and rendering spells it out. In a
custom format `${value}` is the source text and all other variables come from the map. -/
theorem renders_of_validateTemplateSyntax {template field : String} {names : List String}
    (h : validateTemplateSyntax template field = .ok names) :
    ∃ parts last, Splits template parts last ∧ parts.map Prod.snd = names ∧
      (∀ vars reserved, Renders (lookupVariable vars reserved) parts last
        (renderWithReserved template vars reserved)) ∧
      ∀ index authored total, validateContentFormat (.custom template) index authored = .ok total →
        ∃ before literal after, parts = before ++ (literal, "value") :: after ∧
          (∀ part ∈ before ++ after, part.2 ≠ "value") ∧
          ∀ source vars (value : String → String),
            (∀ part ∈ before ++ after, vars.lookup part.2 = some (value part.2)) →
            renderContent (.custom template) source vars =
              bounded (spell value before ++ literal ++ source ++ spell value after ++ last) := by
  obtain ⟨parts, last, hsplits, hnames, hrender⟩ := @scanTemplate_splits _ _ [] _ h
    (fun hinfix => by simpa using hinfix.length_le)
  have hfill : ∀ vars reserved, renderWithReserved template vars reserved =
      fill (lookupVariable vars reserved) parts last "" := fun vars reserved => hrender vars reserved ""
  refine ⟨parts, last, by simpa using hsplits, hnames,
    fun vars reserved => hfill vars reserved ▸ fill_renders vars reserved parts last, ?_⟩
  intro index authored total hformat
  simp only [validateContentFormat, except_bind_ok, ensure_ok] at hformat
  obtain ⟨-, -, listed, hlisted, -, honce, -⟩ := hformat
  obtain rfl : names = listed := Except.ok.inj (h.symm.trans (scanTemplate_field field hlisted))
  rw [← hnames] at honce
  obtain ⟨before, literal, after, rfl, hothers⟩ := exists_once honce
  refine ⟨before, literal, after, rfl, hothers, fun source vars value hvalue => ?_⟩
  let filled : String → String := fun name => if name = "value" then source else value name
  have hfilled : ∀ part ∈ before ++ (literal, "value") :: after,
      lookupVariable vars (some ("value", source)) part.2 = .ok (filled part.2) := by
    intro part hpart
    by_cases hname : part.2 = "value"
    · simp [lookupVariable, filled, hname, Option.filter]
    · have hmem : part ∈ before ++ after := by
        simp only [List.mem_append, List.mem_cons] at hpart ⊢
        rcases hpart with hpart | rfl | hpart
        · exact .inl hpart
        · exact absurd rfl hname
        · exact .inr hpart
      simp [lookupVariable, filled, hname, Ne.symm hname, Option.filter, hvalue part hmem]
  have hsame : ∀ part ∈ before ++ after, filled part.2 = value part.2 := fun part hmem => by
    simp [filled, hothers part hmem]
  rw [renderContent, hfill, ← List.append_nil (before ++ _), fill_append [] last _ "" (by decide) hfilled]
  simp only [fill]
  rw [appendBounded_bind, spell_append, spell,
    spell_congr fun part hmem => hsame part (List.mem_append_left _ hmem),
    spell_congr fun part hmem => hsame part (List.mem_append_right _ hmem)]
  simp [filled, bounded, String.append_assoc]

theorem greeting_renders :
    validateTemplateSyntax "Hi $\x7bname\x7d!" "prompt" = .ok ["name"] ∧
      ∃ parts last, Splits "Hi $\x7bname\x7d!" parts last ∧ parts.map Prod.snd = ["name"] := by
  have hvalid : validateTemplateSyntax "Hi $\x7bname\x7d!" "prompt" = .ok ["name"] := by decide
  obtain ⟨parts, last, hsplits, hnames, -⟩ := renders_of_validateTemplateSyntax hvalid
  exact ⟨hvalid, parts, last, hsplits, hnames⟩

end Lorepia.Prompt
