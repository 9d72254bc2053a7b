import QVPN.Driver.TrafficFilter
import QVPN.Lib.FilterClauses

/-!
# What filter expressions mean

An expression means a Boolean combination of its tests, and the empty filter is neutral in it. The
text of an expression has no parentheses, so it is read as a disjunction of conjunctions, and an
exclamation mark negates one test of it. Texts are read as their expressions mean as long as no
conjunction has a disjunction as an operand and only single tests are negated.
-/

namespace QVPN

open FilterGrammar WinDivertTrafficFilterType

/-- The test for an address. -/
def addrTests (field field6 : String) (addr : NetAddr) : List Test :=
  if addr.getAddrFamily = .IPv4 then [.compare field.toList addr.toString.toList]
  else if addr.getAddrFamily = .IPv6 then [.compare field6.toList addr.toString.toList]
  else [.flag "Address type not supported".toList]

namespace FilterAtom

/-- The tests of which an atom is the disjunction. -/
def tests : FilterAtom → List Test
  | .ipv4 => [.flag "ip".toList]
  | .ipv6 => [.flag "ipv6".toList]
  | .tcp => [.flag "tcp".toList]
  | .udp => [.flag "udp".toList]
  | .source addr => addrTests "ip.SrcAddr" "ip6.SrcAddr" addr
  | .dest addr => addrTests "ip.DstAddr" "ip6.DstAddr" addr
  | .srcPort port => [.compare "tcp.SrcPort".toList port.toNat.repr.toList,
      .compare "udp.SrcPort".toList port.toNat.repr.toList]
  | .dstPort port => [.compare "tcp.DstPort".toList port.toNat.repr.toList,
      .compare "udp.DstPort".toList port.toNat.repr.toList]
  | .tcpSrcPort port => [.compare "tcp.SrcPort".toList port.toNat.repr.toList]
  | .tcpDstPort port => [.compare "tcp.DstPort".toList port.toNat.repr.toList]
  | .udpSrcPort port => [.compare "udp.SrcPort".toList port.toNat.repr.toList]
  | .udpDstPort port => [.compare "udp.DstPort".toList port.toNat.repr.toList]
  | .customProtocol protocol => [.compare "protocol".toList protocol.toNat.repr.toList]
  | .outgoingTraffic => [.flag "outbound".toList]
  | .incomingTraffic => [.flag "inbound".toList]
  | .localTraffic => [.flag "loopback".toList]

/-- Addresses are of one of the two known sizes. -/
def Supported : FilterAtom → Prop
  | .source addr | .dest addr => addr.getAddrFamily = .IPv4 ∨ addr.getAddrFamily = .IPv6
  | _ => True

end FilterAtom

namespace FilterExpr

/-- The tests of an expression, from left to right. -/
def tests : FilterExpr → List Test
  | .empty => []
  | .atom a => a.tests
  | .and e₁ e₂ => e₁.tests ++ e₂.tests
  | .or e₁ e₂ => e₁.tests ++ e₂.tests
  | .not e => e.tests

/-- The Boolean combination that an expression is; the empty filter is neutral. -/
def meaning (env : Test → Bool) : FilterExpr → Option Bool
  | .empty => none
  | .atom a => some (a.tests.any env)
  | .and e₁ e₂ => Option.merge (· && ·) (e₁.meaning env) (e₂.meaning env)
  | .or e₁ e₂ => Option.merge (· || ·) (e₁.meaning env) (e₂.meaning env)
  | .not e => (e.meaning env).map (!·)

/-- The text of an expression is a filter that says what the expression means. Only an expression
without a test may have the empty text. -/
def Faithful (known : Test → Bool) (e : FilterExpr) : Prop :=
  if e.text = [] then ∀ env, e.meaning env = none
  else ∃ clauses, parse known (lex e.text) = some clauses ∧
    ∀ env, e.meaning env = some (eval env clauses)

/-- Expressions whose operands vanish. -/
def Blank : FilterExpr → Prop
  | .empty => True
  | .atom _ => False
  | .and e₁ e₂ => e₁.Blank ∧ e₂.Blank
  | .or e₁ e₂ => e₁.Blank ∨ e₂.Blank
  | .not _ => False

/-- Expressions without a test that vanish. -/
def Neutral (e : FilterExpr) : Prop := e.tests = [] ∧ e.Blank

/-- Expressions with a disjunction of tests. -/
def Disjunctive : FilterExpr → Prop
  | .empty => False
  | .atom a => 1 < a.tests.length
  | .and e₁ e₂ => e₁.Disjunctive ∨ e₂.Disjunctive
  | .or e₁ e₂ => e₁.tests ++ e₂.tests ≠ []
  | .not e => e.Disjunctive

/-- Expressions with a test that compares a field. -/
def Compares (e : FilterExpr) : Prop := ∃ field value, Test.compare field value ∈ e.tests

/-- Expressions, or negations of them, whose text keeps their structure: operands of a conjunction
are no disjunctions, operands of a disjunction are not empty, and what is negated is a single test
or, without comparisons, itself a negation. -/
def Rendered (known : Test → Bool) : Bool → FilterExpr → Prop
  | _, .empty => False
  | negation, .atom a => a.Supported ∧ (∀ t ∈ a.tests, known t = true) ∧
      (negation = true → a.tests.length = 1)
  | negation, .and e₁ e₂ =>
      e₂.Neutral ∧ Rendered known negation e₁ ∨ e₁.Neutral ∧ Rendered known negation e₂ ∨
        negation = false ∧ Rendered known false e₁ ∧ Rendered known false e₂ ∧
          ¬ e₁.Disjunctive ∧ ¬ e₂.Disjunctive
  | negation, .or e₁ e₂ =>
      negation = false ∧ Rendered known false e₁ ∧ Rendered known false e₂
  | false, .not e => Rendered known true e
  | true, .not e => Rendered known false e ∧ ¬ e.Compares

end FilterExpr

section Texts

/-- Values are made of digits and dots. -/
def Numeric (w : List Char) : Prop := w ≠ [] ∧ ∀ c ∈ w, c.isDigit = true ∨ c = '.'

theorem numeric_repr (n : ℕ) : Numeric n.repr.toList := by
  rw [Nat.repr_eq_ofList_toDigits, String.toList_ofList]
  refine ⟨Nat.toDigits_ne_nil, ?_⟩
  intro c hc
  exact Or.inl (Nat.isDigit_of_mem_toDigits (by decide) (by decide) hc)

/-- An address with a byte has a numeric text. -/
theorem numeric_addr {addr : NetAddr} (h : addr.ip ≠ []) : Numeric addr.toString.toList := by
  have htext : addr.toString.toList =
      (addr.ip.flatMap fun b => b.toNat.repr.toList ++ ['.']).dropLast := by
    rw [NetAddr.toString, String.toList_ofList, String.toList_join, List.flatMap_map]
    simp only [String.toList_append]
    rfl
  rw [htext]
  refine ⟨?_, ?_⟩
  · obtain ⟨b, rest, hip⟩ := List.exists_cons_of_ne_nil h
    have hdigits := List.length_pos_iff.mpr (numeric_repr b.toNat).1
    apply List.length_pos_iff.mp
    rw [List.length_dropLast, hip, List.flatMap_cons, List.length_append, List.length_append,
      List.length_singleton]
    omega
  · intro c hc
    obtain ⟨b, -, hb⟩ := List.mem_flatMap.mp (List.mem_of_mem_dropLast hc)
    obtain hb | hb := List.mem_append.mp hb
    · exact (numeric_repr b.toNat).2 c hb
    · exact Or.inr (List.mem_singleton.mp hb)

/-- A numeric text is a word. -/
theorem lex_numeric {w : List Char} (h : Numeric w) : lex w = [.word w] := by
  obtain ⟨hne, hchars⟩ := h
  have hplain : ∀ c ∈ w, Plain c := by
    intro c hc
    obtain hdigit | rfl := hchars c hc
    · refine ⟨?_, ?_, ?_, ?_, ?_⟩ <;>
      · rintro rfl
        revert hdigit
        decide
    · exact ⟨by decide, by decide, by decide, by decide, by decide⟩
  have hfirst {a : Char} {rest : List Char} (ha : ¬ (a.isDigit = true ∨ a = '.')) :
      w ≠ a :: rest := by
    rintro rfl
    exact ha (hchars a List.mem_cons_self)
  have hkeyword : keyword w = .word w := by
    rw [keyword, if_neg (hfirst (by decide)), if_neg (hfirst (by decide)),
      if_neg (hfirst (by decide))]
  rw [lex, lexFrom_plain hplain, List.nil_append, Pending.tokens, if_neg hne, hkeyword]

/-- A comparison of a field with a value. -/
theorem lex_fieldTest {field value : String} (hfield : lex field.toList = [.word field.toList])
    (hvalue : Numeric value.toList) : lex (WinDivertTrafficFilter.fieldTest field value) =
      [.word field.toList, .eq, .word value.toList] := by
  have hblank := lexFrom_space (.word []) field.toList ('=' :: ' ' :: value.toList)
  have heq : lex ('=' :: ' ' :: value.toList) = .eq :: lex value.toList := rfl
  rw [heq, lex_numeric hvalue] at hblank
  rw [lex] at hfield
  rw [hfield] at hblank
  rw [WinDivertTrafficFilter.fieldTest, List.append_assoc]
  exact hblank

/-- Two filters joined by a written operator. -/
theorem lex_joined {word : List Char} {sep : Token} (hword : lex word = [sep])
    (f t : FilterText) : lex (f ++ (' ' :: word ++ [' ']) ++ t) = lex f ++ sep :: lex t := by
  have hfirst := lexFrom_space (.word []) f (word ++ ' ' :: t)
  have hsecond := lexFrom_space (.word []) word t
  rw [lex] at hword
  rw [lex, lex, List.append_assoc]
  simp only [List.cons_append, List.append_assoc, List.nil_append]
  rw [hfirst, lex, hsecond, hword]
  rfl

theorem lex_and (f t : FilterText) : lex (f ++ " and ".toList ++ t) = lex f ++ .and :: lex t := by
  have hword : lex ['a', 'n', 'd'] = [.and] := by decide
  exact lex_joined hword f t

theorem lex_or (f t : FilterText) : lex (f ++ " or ".toList ++ t) = lex f ++ .or :: lex t := by
  have hword : lex ['o', 'r'] = [.or] := by decide
  exact lex_joined hword f t

theorem lex_bars (f t : FilterText) : lex (f ++ " || ".toList ++ t) = lex f ++ .or :: lex t := by
  have hword : lex ['|', '|'] = [.or] := by decide
  exact lex_joined hword f t

/-- The exclamation mark lands before the first equality sign. -/
theorem operatorNot_append {before : FilterText} (h : '=' ∉ before) (after : FilterText) :
    operatorNot (before ++ '=' :: after) = before ++ '!' :: '=' :: after := by
  have hpos : (before ++ '=' :: after).idxOf '=' = before.length := by
    rw [List.idxOf_append, if_neg h, List.idxOf_cons_self, Nat.zero_add]
  rw [operatorNot, hpos, if_pos (by simp), List.take_left, List.drop_left]

/-- The tokens of a negated text. -/
theorem negates_operatorNot (f : FilterText) : Negates (lex f) (lex (operatorNot f)) := by
  by_cases hmem : '=' ∈ f
  · obtain ⟨before, after, rfl, hbefore⟩ := List.eq_append_cons_of_mem hmem
    have hnone := lexFrom_not_comparison hbefore (.word [])
    rw [operatorNot_append hbefore, lex, lex, lexFrom_neq]
    obtain heq | ⟨ts, hnot, hneq⟩ := lexFrom_eq (.word []) before after
    · rw [heq]
      exact .eq hnone
    · rw [hneq, hnot, List.append_assoc]
      rw [hnot] at hnone
      exact .neq fun t ht => hnone t (List.mem_append_left _ ht)
  · have hpos : ¬ f.idxOf '=' < f.length := fun h => hmem (List.idxOf_lt_length_iff.mp h)
    rw [operatorNot, if_neg hpos, lex_bang hmem]
    exact .front (lexFrom_not_comparison hmem _)

end Texts

section Atoms

/-- How the text of an atom is read. -/
inductive AtomShape (a : FilterAtom) : Prop where
  | flag (name : List Char) (htests : a.tests = [.flag name]) (hlex : lex a.text = [.word name])
      (hsupported : a.Supported)
  | compare (field value : List Char) (htests : a.tests = [.compare field value])
      (hlex : lex a.text = [.word field, .eq, .word value]) (hsupported : a.Supported)
  | ports (field field' value : List Char)
      (htests : a.tests = [.compare field value, .compare field' value])
      (hlex : lex a.text =
        [.word field, .eq, .word value, .or, .word field', .eq, .word value])
      (hsupported : a.Supported)
  | unsupported (message : List Char) (htests : a.tests = [.flag message])
      (hlex : lex a.text = [.word "Address".toList, .word "type".toList, .not,
        .word "supported".toList]) (hsupported : ¬ a.Supported)

/-- A single comparison. -/
theorem AtomShape.of_fieldTest {a : FilterAtom} {field value : String}
    (hfield : lex field.toList = [.word field.toList]) (hvalue : Numeric value.toList)
    (htests : a.tests = [.compare field.toList value.toList])
    (htext : a.text = WinDivertTrafficFilter.fieldTest field value) (hsupported : a.Supported) :
    AtomShape a :=
  .compare _ _ htests (by rw [htext]; exact lex_fieldTest hfield hvalue) hsupported

/-- A comparison for each transport protocol. -/
theorem AtomShape.of_ports {a : FilterAtom} {field field' value : String}
    (hfield : lex field.toList = [.word field.toList])
    (hfield' : lex field'.toList = [.word field'.toList]) (hvalue : Numeric value.toList)
    (htests : a.tests = [.compare field.toList value.toList, .compare field'.toList value.toList])
    (htext : a.text = WinDivertTrafficFilter.fieldTest field value ++ " || ".toList ++
      WinDivertTrafficFilter.fieldTest field' value) (hsupported : a.Supported) : AtomShape a := by
  refine .ports _ _ _ htests ?_ hsupported
  rw [htext, lex_bars, lex_fieldTest hfield hvalue, lex_fieldTest hfield' hvalue]
  rfl

/-- A comparison with an address, if its size is known. -/
theorem AtomShape.of_addr {a : FilterAtom} {field field6 : String} {addr : NetAddr}
    (hfield : lex field.toList = [.word field.toList])
    (hfield6 : lex field6.toList = [.word field6.toList])
    (htests : a.tests = addrTests field field6 addr)
    (htext : a.text = WinDivertTrafficFilter.addrTest field field6 addr)
    (hsupported : a.Supported ↔ addr.getAddrFamily = .IPv4 ∨ addr.getAddrFamily = .IPv6) :
    AtomShape a := by
  have hnonempty (hfamily : addr.getAddrFamily = .IPv4 ∨ addr.getAddrFamily = .IPv6) :
      addr.ip ≠ [] := by
    intro hnil
    rw [NetAddr.getAddrFamily, hnil] at hfamily
    revert hfamily
    decide
  unfold addrTests at htests
  unfold WinDivertTrafficFilter.addrTest at htext
  by_cases hfour : addr.getAddrFamily = .IPv4
  · rw [if_pos hfour] at htests htext
    exact .of_fieldTest hfield (numeric_addr (hnonempty (Or.inl hfour))) htests htext
      (hsupported.mpr (Or.inl hfour))
  · rw [if_neg hfour] at htests htext
    by_cases hsix : addr.getAddrFamily = .IPv6
    · rw [if_pos hsix] at htests htext
      exact .of_fieldTest hfield6 (numeric_addr (hnonempty (Or.inr hsix))) htests htext
        (hsupported.mpr (Or.inr hsix))
    · rw [if_neg hsix] at htests htext
      refine .unsupported _ htests ?_ fun h => (hsupported.mp h).elim hfour hsix
      rw [htext]
      decide

/-- Every atom is read in one of these ways. -/
theorem atomShape (a : FilterAtom) : AtomShape a := by
  cases a with
  | ipv4 => exact .flag _ rfl (by decide) trivial
  | ipv6 => exact .flag _ rfl (by decide) trivial
  | tcp => exact .flag _ rfl (by decide) trivial
  | udp => exact .flag _ rfl (by decide) trivial
  | source addr => exact .of_addr (by decide) (by decide) rfl rfl Iff.rfl
  | dest addr => exact .of_addr (by decide) (by decide) rfl rfl Iff.rfl
  | srcPort port => exact .of_ports (by decide) (by decide) (numeric_repr _) rfl rfl trivial
  | dstPort port => exact .of_ports (by decide) (by decide) (numeric_repr _) rfl rfl trivial
  | tcpSrcPort port => exact .of_fieldTest (by decide) (numeric_repr _) rfl rfl trivial
  | tcpDstPort port => exact .of_fieldTest (by decide) (numeric_repr _) rfl rfl trivial
  | udpSrcPort port => exact .of_fieldTest (by decide) (numeric_repr _) rfl rfl trivial
  | udpDstPort port => exact .of_fieldTest (by decide) (numeric_repr _) rfl rfl trivial
  | customProtocol protocol => exact .of_fieldTest (by decide) (numeric_repr _) rfl rfl trivial
  | outgoingTraffic => exact .flag _ rfl (by decide) trivial
  | incomingTraffic => exact .flag _ rfl (by decide) trivial
  | localTraffic => exact .flag _ rfl (by decide) trivial

/-- An atom has a test. -/
theorem FilterAtom.tests_ne_nil (a : FilterAtom) : a.tests ≠ [] := by
  cases atomShape a with
  | flag name htests _ _ => simp [htests]
  | compare field value htests _ _ => simp [htests]
  | ports field field' value htests _ _ => simp [htests]
  | unsupported message htests _ _ => simp [htests]

/-- An atom has a text. -/
theorem FilterAtom.text_ne_nil (a : FilterAtom) : a.text ≠ [] := by
  intro hnil
  have hlex : lex a.text = [] := by
    rw [hnil]
    rfl
  cases atomShape a with
  | flag name _ h _ => simp [h] at hlex
  | compare field value _ h _ => simp [h] at hlex
  | ports field field' value _ h _ => simp [h] at hlex
  | unsupported message _ h _ => simp [h] at hlex

end Atoms

section Sufficiency

variable {known : Test → Bool}

namespace FilterExpr

/-- Without a test there is nothing to say. -/
theorem meaning_eq_none {e : FilterExpr} (h : e.tests = []) (env : Test → Bool) :
    e.meaning env = none := by
  induction e with
  | empty => rfl
  | atom a => exact absurd h a.tests_ne_nil
  | and e₁ e₂ ih₁ ih₂ =>
    obtain ⟨h₁, h₂⟩ := List.append_eq_nil_iff.mp h
    rw [meaning, ih₁ h₁, ih₂ h₂]
    rfl
  | or e₁ e₂ ih₁ ih₂ =>
    obtain ⟨h₁, h₂⟩ := List.append_eq_nil_iff.mp h
    rw [meaning, ih₁ h₁, ih₂ h₂]
    rfl
  | not e ih =>
    rw [meaning, ih h]
    rfl

theorem not_disjunctive_of_tests {e : FilterExpr} (h : e.tests = []) : ¬ e.Disjunctive := by
  induction e with
  | empty => exact id
  | atom a => exact absurd h a.tests_ne_nil
  | and e₁ e₂ ih₁ ih₂ =>
    obtain ⟨h₁, h₂⟩ := List.append_eq_nil_iff.mp h
    exact not_or.mpr ⟨ih₁ h₁, ih₂ h₂⟩
  | or e₁ e₂ _ _ => exact not_not.mpr h
  | not e ih => exact ih h

/-- The text vanishes with the operands. -/
theorem text_eq_nil_iff (e : FilterExpr) : e.text = [] ↔ e.Blank := by
  induction e with
  | empty => exact iff_of_true rfl trivial
  | atom a => exact iff_of_false a.text_ne_nil id
  | and e₁ e₂ ih₁ ih₂ =>
    rw [Blank, ← ih₁, ← ih₂, text, operatorAnd]
    by_cases h₂ : e₂.text = []
    · rw [if_pos h₂, and_iff_left h₂]
    · rw [if_neg h₂]
      by_cases h₁ : e₁.text = []
      · rw [if_pos h₁, and_iff_right h₁]
      · rw [if_neg h₁]
        simp [h₁]
  | or e₁ e₂ ih₁ ih₂ =>
    rw [Blank, ← ih₁, ← ih₂, text, operatorOr]
    by_cases h₁ : e₁.text = []
    · rw [if_pos h₁]
      simp [h₁]
    · rw [if_neg h₁]
      by_cases h₂ : e₂.text = []
      · rw [if_pos h₂]
        simp [h₂]
      · rw [if_neg h₂]
        simp [h₁, h₂]
  | not e _ =>
    refine iff_of_false ?_ id
    rw [text, operatorNot]
    by_cases heq : e.text.idxOf '=' < e.text.length
    · rw [if_pos heq]
      simp
    · rw [if_neg heq]
      exact List.cons_ne_nil _ _

theorem text_and {e₁ e₂ : FilterExpr} (h₁ : ¬ e₁.Blank) (h₂ : ¬ e₂.Blank) :
    (FilterExpr.and e₁ e₂).text = e₁.text ++ " and ".toList ++ e₂.text := by
  rw [← text_eq_nil_iff] at h₁ h₂
  rw [text, operatorAnd, if_neg h₂, if_neg h₁]

theorem text_or {e₁ e₂ : FilterExpr} (h₁ : ¬ e₁.Blank) (h₂ : ¬ e₂.Blank) :
    (FilterExpr.or e₁ e₂).text = e₁.text ++ " or ".toList ++ e₂.text := by
  rw [← text_eq_nil_iff] at h₁ h₂
  rw [text, operatorOr, if_neg h₁, if_neg h₂]

theorem text_and_left {e₁ e₂ : FilterExpr} (h : e₂.Blank) : (FilterExpr.and e₁ e₂).text = e₁.text :=
  if_pos ((text_eq_nil_iff e₂).mpr h)

theorem text_and_right {e₁ e₂ : FilterExpr} (h : e₁.Blank) :
    (FilterExpr.and e₁ e₂).text = e₂.text := by
  rw [← text_eq_nil_iff] at h
  rw [text, operatorAnd, h, if_pos rfl]
  by_cases h₂ : e₂.text = []
  · rw [if_pos h₂, h₂]
  · rw [if_neg h₂]

theorem compares_and (e₁ e₂ : FilterExpr) :
    (FilterExpr.and e₁ e₂).Compares ↔ e₁.Compares ∨ e₂.Compares := by
  simp only [Compares, tests, List.mem_append, exists_or]

theorem compares_or (e₁ e₂ : FilterExpr) :
    (FilterExpr.or e₁ e₂).Compares ↔ e₁.Compares ∨ e₂.Compares := by
  simp only [Compares, tests, List.mem_append, exists_or]

/-- A text of an expression without comparisons has none. -/
theorem no_comparison {e : FilterExpr} (h : ¬ e.Compares) : ∀ t ∈ lex e.text, ¬ Comparison t := by
  induction e with
  | empty =>
    intro t ht
    cases ht
  | atom a =>
    intro t ht
    cases atomShape a with
    | flag name _ hlex _ =>
      rw [text, hlex, List.mem_singleton] at ht
      rw [ht]
      simp [Comparison]
    | compare field value htests _ _ => exact absurd ⟨field, value, by simp [tests, htests]⟩ h
    | ports field field' value htests _ _ =>
      exact absurd ⟨field, value, by simp [tests, htests]⟩ h
    | unsupported message _ hlex _ =>
      have hnone : ∀ t ∈ lex a.text, t ≠ .eq ∧ t ≠ .neq := by
        rw [hlex]
        decide
      exact not_or.mpr (hnone t ht)
  | and e₁ e₂ ih₁ ih₂ =>
    obtain ⟨hnone₁, hnone₂⟩ := not_or.mp (mt (compares_and e₁ e₂).mpr h)
    have h₁ := ih₁ hnone₁
    have h₂ := ih₂ hnone₂
    by_cases hblank₂ : e₂.Blank
    · rwa [text_and_left hblank₂]
    · by_cases hblank₁ : e₁.Blank
      · rwa [text_and_right hblank₁]
      · rw [text_and hblank₁ hblank₂, lex_and]
        intro t ht
        obtain ht | ht := List.mem_append.mp ht
        · exact h₁ t ht
        · obtain rfl | ht := List.mem_cons.mp ht
          · simp [Comparison]
          · exact h₂ t ht
  | or e₁ e₂ ih₁ ih₂ =>
    by_cases hblank : (FilterExpr.or e₁ e₂).Blank
    · rw [(text_eq_nil_iff _).mpr hblank]
      intro t ht
      cases ht
    · obtain ⟨hblank₁, hblank₂⟩ := not_or.mp hblank
      obtain ⟨hnone₁, hnone₂⟩ := not_or.mp (mt (compares_or e₁ e₂).mpr h)
      rw [text_or hblank₁ hblank₂, lex_or]
      intro t ht
      obtain ht | ht := List.mem_append.mp ht
      · exact ih₁ hnone₁ t ht
      · obtain rfl | ht := List.mem_cons.mp ht
        · simp [Comparison]
        · exact ih₂ hnone₂ t ht
  | not e ih =>
    rw [text, (negates_operatorNot e.text).of_no_comparison (ih h)]
    intro t ht
    obtain rfl | ht := List.mem_cons.mp ht
    · simp [Comparison]
    · exact ih h t ht

/-- Two exclamation marks in front of a text without comparisons. -/
theorem lex_notNot {e : FilterExpr} (h : ∀ t ∈ lex e.text, ¬ Comparison t) :
    lex (operatorNot (FilterExpr.not e).text) = .not :: .not :: lex e.text := by
  have hnot := (negates_operatorNot e.text).of_no_comparison h
  have hnone : ∀ t ∈ lex (operatorNot e.text), ¬ Comparison t := by
    rw [hnot]
    intro t ht
    obtain rfl | ht := List.mem_cons.mp ht
    · simp [Comparison]
    · exact h t ht
  rw [text, (negates_operatorNot (operatorNot e.text)).of_no_comparison hnone, hnot]

theorem Rendered.not_blank {negation : Bool} {e : FilterExpr} (h : Rendered known negation e) :
    ¬ e.Blank := by
  induction e generalizing negation with
  | empty => exact absurd h id
  | atom a => exact id
  | and e₁ e₂ ih₁ ih₂ =>
    rintro ⟨hblank₁, hblank₂⟩
    obtain ⟨-, h⟩ | ⟨-, h⟩ | ⟨-, h, -⟩ := h
    · exact ih₁ h hblank₁
    · exact ih₂ h hblank₂
    · exact ih₁ h hblank₁
  | or e₁ e₂ ih₁ ih₂ =>
    obtain ⟨-, h₁, h₂⟩ := h
    exact not_or.mpr ⟨ih₁ h₁, ih₂ h₂⟩
  | not e _ => exact id

/-- How an expression, or its negation, is read back. -/
structure ReadAs (known : Test → Bool) (negation : Bool) (e : FilterExpr)
    (clauses : List (List Literal)) : Prop where
  parsed : parse known (lex (if negation then operatorNot e.text else e.text)) = some clauses
  meaning : ∀ env, e.meaning env = some (eval env clauses != negation)

/-- A single test, or its negation, is read back. -/
theorem atom_readAs {negation : Bool} {a : FilterAtom} (h : Rendered known negation (.atom a)) :
    ∃ clauses, ReadAs known negation (.atom a) clauses ∧
      (clauses.length = 1 ↔ ¬ (FilterExpr.atom a).Disjunctive) := by
  obtain ⟨hsupported, hknown, hsingle⟩ := h
  have hnegates := negates_operatorNot a.text
  cases atomShape a with
  | flag name htests hlex _ =>
    rw [htests, List.forall_mem_singleton] at hknown
    have hparse := parse_flag hknown
    refine ⟨[[(!negation, .flag name)]], ⟨?_, ?_⟩, by simp [Disjunctive, htests]⟩
    · cases negation with
      | false => exact (congrArg (parse known) hlex).trans hparse
      | true =>
        rw [hlex] at hnegates
        rw [if_pos rfl, text, hnegates.of_no_comparison (by simp [Comparison]), parse_not, hparse]
        rfl
    · intro env
      rw [FilterExpr.meaning, htests, eval_single]
      cases negation <;> simp [evalLiteral]
  | compare field value htests hlex _ =>
    rw [htests, List.forall_mem_singleton] at hknown
    refine ⟨[[(!negation, .compare field value)]], ⟨?_, ?_⟩, by simp [Disjunctive, htests]⟩
    · cases negation with
      | false => exact (congrArg (parse known) hlex).trans (parse_compare hknown)
      | true =>
        have hbefore : ∀ t ∈ [Token.word field], ¬ Comparison t := by simp [Comparison]
        rw [hlex] at hnegates
        rw [if_pos rfl, text, Negates.of_eq hbefore hnegates]
        exact parse_differ hknown
    · intro env
      rw [FilterExpr.meaning, htests, eval_single]
      cases negation <;> simp [evalLiteral]
  | ports field field' value htests hlex _ =>
    cases negation with
    | false =>
      have hparse := parse_or (parse_compare (hknown (.compare field value) (by simp [htests])))
        (parse_compare (hknown (.compare field' value) (by simp [htests])))
      refine ⟨_, ⟨(congrArg (parse known) hlex).trans hparse, ?_⟩, by simp [Disjunctive, htests]⟩
      intro env
      rw [FilterExpr.meaning, htests, eval_append, eval_single, eval_single]
      simp [evalLiteral]
    | true =>
      rw [htests] at hsingle
      cases hsingle rfl
  | unsupported message _ _ hnot => exact absurd hsupported hnot

/-- Whatever keeps its structure is read back. -/
theorem Rendered.readAs {negation : Bool} {e : FilterExpr} (h : Rendered known negation e) :
    ∃ clauses, ReadAs known negation e clauses ∧ (clauses.length = 1 ↔ ¬ e.Disjunctive) := by
  induction e generalizing negation with
  | empty => exact absurd h id
  | atom a => exact atom_readAs h
  | and e₁ e₂ ih₁ ih₂ =>
    obtain ⟨⟨htests, hblank⟩, h⟩ | ⟨⟨htests, hblank⟩, h⟩ | ⟨rfl, h₁, h₂, hsingle₁, hsingle₂⟩ := h
    · obtain ⟨clauses, ⟨hparsed, hmeaning⟩, hsingle⟩ := ih₁ h
      refine ⟨clauses, ⟨?_, ?_⟩, ?_⟩
      · rwa [text_and_left hblank]
      · intro env
        rw [FilterExpr.meaning, hmeaning, meaning_eq_none htests]
        rfl
      · rw [hsingle, Disjunctive, or_iff_left (not_disjunctive_of_tests htests)]
    · obtain ⟨clauses, ⟨hparsed, hmeaning⟩, hsingle⟩ := ih₂ h
      refine ⟨clauses, ⟨?_, ?_⟩, ?_⟩
      · rwa [text_and_right hblank]
      · intro env
        rw [FilterExpr.meaning, hmeaning, meaning_eq_none htests]
        rfl
      · rw [hsingle, Disjunctive, or_iff_right (not_disjunctive_of_tests htests)]
    · obtain ⟨clauses₁, ⟨hparsed₁, hmeaning₁⟩, hlength₁⟩ := ih₁ h₁
      obtain ⟨clauses₂, ⟨hparsed₂, hmeaning₂⟩, hlength₂⟩ := ih₂ h₂
      obtain ⟨last, rfl⟩ := List.length_eq_one_iff.mp (hlength₁.mpr hsingle₁)
      obtain ⟨first, rfl⟩ := List.length_eq_one_iff.mp (hlength₂.mpr hsingle₂)
      refine ⟨[last ++ first], ⟨?_, ?_⟩, iff_of_true rfl (not_or.mpr ⟨hsingle₁, hsingle₂⟩)⟩
      · rw [if_neg Bool.false_ne_true, text_and h₁.not_blank h₂.not_blank, lex_and]
        exact parse_and hparsed₁ hparsed₂
      · intro env
        rw [FilterExpr.meaning, hmeaning₁, hmeaning₂, eval_single, eval_single, eval_single,
          List.all_append]
        simp
  | or e₁ e₂ ih₁ ih₂ =>
    obtain ⟨rfl, h₁, h₂⟩ := h
    obtain ⟨clauses₁, ⟨hparsed₁, hmeaning₁⟩, -⟩ := ih₁ h₁
    obtain ⟨clauses₂, ⟨hparsed₂, hmeaning₂⟩, -⟩ := ih₂ h₂
    refine ⟨clauses₁ ++ clauses₂, ⟨?_, ?_⟩, iff_of_false ?_ ?_⟩
    · rw [if_neg Bool.false_ne_true, text_or h₁.not_blank h₂.not_blank, lex_or]
      exact parse_or hparsed₁ hparsed₂
    · intro env
      rw [FilterExpr.meaning, hmeaning₁, hmeaning₂, eval_append]
      simp
    · have hne₁ := List.length_pos_iff.mpr (parseFrom_ne_nil hparsed₁).1
      have hne₂ := List.length_pos_iff.mpr (parseFrom_ne_nil hparsed₂).1
      rw [List.length_append]
      omega
    · intro hsingle
      have htests : e₁.tests ++ e₂.tests = [] := not_not.mp hsingle
      have hnone := meaning_eq_none (List.append_eq_nil_iff.mp htests).1 fun _ => true
      rw [hmeaning₁] at hnone
      cases hnone
  | not e ih =>
    cases negation with
    | false =>
      have hnegated : Rendered known true e := h
      obtain ⟨clauses, ⟨hparsed, hmeaning⟩, hsingle⟩ := ih hnegated
      refine ⟨clauses, ⟨hparsed, ?_⟩, hsingle⟩
      intro env
      rw [FilterExpr.meaning, hmeaning]
      simp
    | true =>
      obtain ⟨h, hcompares⟩ := h
      obtain ⟨clauses, ⟨hparsed, hmeaning⟩, hsingle⟩ := ih h
      refine ⟨clauses, ⟨?_, ?_⟩, hsingle⟩
      · rw [if_neg Bool.false_ne_true] at hparsed
        rw [if_pos rfl, lex_notNot (no_comparison hcompares), parse_not, parse_not, hparsed]
        exact congrArg some (negateFirst_negateFirst clauses)
      · intro env
        rw [FilterExpr.meaning, hmeaning]
        simp

/-- An expression whose text keeps its structure means what the text says. -/
theorem Rendered.faithful {e : FilterExpr} (h : Rendered known false e) : Faithful known e := by
  obtain ⟨clauses, ⟨hparsed, hmeaning⟩, -⟩ := h.readAs
  rw [Faithful, if_neg (mt (text_eq_nil_iff e).mp h.not_blank)]
  refine ⟨clauses, hparsed, ?_⟩
  intro env
  rw [hmeaning, Bool.bne_false]

/-- An expression without a test that vanishes means nothing. -/
theorem Neutral.faithful {e : FilterExpr} (h : e.Neutral) : Faithful known e := by
  rw [Faithful, if_pos ((text_eq_nil_iff e).mpr h.2)]
  exact meaning_eq_none h.1

end FilterExpr

end Sufficiency

end QVPN
