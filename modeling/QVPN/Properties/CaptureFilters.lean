import QVPN.Driver.CaptureFilters
import QVPN.Properties.AddrText
import QVPN.Properties.FilterExactness

/-!
# What the client captures

Whatever filters a program adds in whatever order, and however often it starts its captures: as long as
no filter is a disjunction, a capture takes the packets for which everything holds that was added for
its direction, and the default filters. The defaults name an address of their own. A server at another
address is never sent its own packets back, and nothing that it sends is captured.
-/

namespace QVPN

open FilterGrammar FilterExpr WinDivertClientVPNNetDriver

section Joined

variable {known : Test → Bool}

/-- A filter that can be joined with others. -/
def Joinable (known : Test → Bool) (e : FilterExpr) : Prop :=
  Rendered known false e ∧ ¬ e.Disjunctive

theorem Joinable.tests_ne_nil {e : FilterExpr} (h : Joinable known e) : e.tests ≠ [] := by
  obtain ⟨clauses, hread, -⟩ := h.1.readAs
  exact tests_ne_nil_of_parse (e.tokens_operator false) hread.parsed

/-- A text that takes exactly the packets for which all of some filters hold. -/
def Denotes (known : Test → Bool) (text : FilterText) (es : List FilterExpr) : Prop :=
  ∃ clauses, parse known (lex text) = some clauses ∧
    ∀ env, eval env clauses = es.all (·.holds env)

/-- A conjunction of filters with tests. -/
theorem meaning_foldl {e : FilterExpr} {env : Test → Bool} {b : Bool}
    (he : e.meaning env = some b) {es : List FilterExpr} (h : ∀ e' ∈ es, e'.tests ≠ []) :
    (es.foldl .and e).meaning env = some (b && es.all (·.holds env)) := by
  induction es generalizing e b with
  | nil => rw [List.foldl_nil, he, List.all_nil, Bool.and_true]
  | cons e' es ih =>
    have hboth : (FilterExpr.and e e').meaning env = some (b && e'.holds env) := by
      rw [meaning, he, meaning_eq_holds (h e' (List.mem_cons_self ..))]
      rfl
    rw [List.foldl_cons, ih hboth fun x hx => h x (List.mem_cons_of_mem _ hx), List.all_cons,
      Bool.and_assoc]

/-- Filters that can be joined are joined to a text for all of them. -/
theorem denotes_joined {es : List FilterExpr} (hne : es ≠ []) (h : ∀ e ∈ es, Joinable known e) :
    Denotes known (calculateOutgoingFilters (es.map text)) es := by
  have htext : calculateOutgoingFilters (es.map text) = (es.foldl FilterExpr.and .empty).text :=
    calculateOutgoingFilters_text .empty es
  have hmeaning (env : Test → Bool) :
      (es.foldl FilterExpr.and .empty).meaning env = some (es.all (·.holds env)) := by
    obtain ⟨e, rest, rfl⟩ := List.exists_cons_of_ne_nil hne
    have hfirst : (FilterExpr.and .empty e).meaning env = some (e.holds env) := by
      rw [meaning, meaning_eq_holds (h e (List.mem_cons_self ..)).tests_ne_nil]
      rfl
    exact meaning_foldl hfirst fun x hx => (h x (List.mem_cons_of_mem _ hx)).tests_ne_nil
  have hjoined := rendered_foldl (Or.inl ⟨rfl, trivial⟩ : FilterExpr.empty.Neutral ∨ _) h
  have hfaithful := faithful_of_rendered (hjoined.imp_right And.left)
  unfold Faithful at hfaithful
  split at hfaithful
  · have hnone := hfaithful fun _ => true
    rw [hmeaning] at hnone
    cases hnone
  · obtain ⟨clauses, hparsed, heval⟩ := hfaithful
    refine ⟨clauses, htext ▸ hparsed, ?_⟩
    intro env
    exact Option.some.inj ((heval env).symm.trans (hmeaning env))

/-- Only which filters there are matters. -/
theorem Denotes.congr {text : FilterText} {es es' : List FilterExpr} (h : Denotes known text es)
    (hmem : ∀ e, e ∈ es ↔ e ∈ es') : Denotes known text es' := by
  obtain ⟨clauses, hparsed, heval⟩ := h
  refine ⟨clauses, hparsed, ?_⟩
  intro env
  rw [heval, Bool.eq_iff_iff, List.all_eq_true, List.all_eq_true]
  exact forall_congr' fun e => imp_congr_left (hmem e)

end Joined

section Defaults

variable {known : Test → Bool} {vpnAddress : NetAddr}

/-- The default filters can be joined if the server has a known address. -/
theorem defaultFilter_joinable
    (haddr : vpnAddress.getAddrFamily = .IPv4 ∨ vpnAddress.getAddrFamily = .IPv6)
    (hknown : ∀ d, ∀ e ∈ defaultFilter vpnAddress d, ∀ t ∈ e.tests, known t = true)
    (d : Direction) : ∀ e ∈ defaultFilter vpnAddress d, Joinable known e := by
  have hsource : (addrTests "ip.SrcAddr" "ip6.SrcAddr" vpnAddress).length = 1 := by
    unfold addrTests
    split
    · rfl
    · split <;> rfl
  have hall := hknown d
  cases d with
  | outgoing =>
    simp only [defaultFilter, defaultOutgoingFilter, List.forall_mem_cons] at hall ⊢
    obtain ⟨hserver, houtgoing, hssh, hlocal, hdest, hport, -⟩ := hall
    exact ⟨rendered_single (.source vpnAddress) haddr hsource hserver true,
      rendered_single .outgoingTraffic trivial rfl houtgoing false,
      rendered_single (.tcpDstPort 22) trivial rfl hssh true,
      rendered_single .localTraffic trivial rfl hlocal true,
      rendered_single (.dest _) (Or.inl rfl) rfl hdest false,
      rendered_single (.tcpDstPort 8080) trivial rfl hport false,
      fun _ he => (List.not_mem_nil he).elim⟩
  | incoming =>
    simp only [defaultFilter, defaultIncomingFilter, List.forall_mem_cons] at hall ⊢
    obtain ⟨hincoming, hserver, hssh, hlocal, hsource', -⟩ := hall
    exact ⟨rendered_single .incomingTraffic trivial rfl hincoming false,
      rendered_single (.source vpnAddress) haddr hsource hserver false,
      rendered_single (.tcpSrcPort 22) trivial rfl hssh true,
      rendered_single .localTraffic trivial rfl hlocal true,
      rendered_single (.source _) (Or.inl rfl) rfl hsource' false,
      fun _ he => (List.not_mem_nil he).elim⟩

/-- The list of a direction holds what was added, and besides that only defaults. -/
structure Keeps (vpnAddress : NetAddr) (d : Direction) (added es : List FilterExpr) : Prop where
  kept : ∀ e ∈ added, e ∈ es
  only : ∀ e ∈ es, e ∈ added ∨ e ∈ defaultFilter vpnAddress d

/-- A filter that is added is kept. -/
theorem Keeps.add {d : Direction} {added es : List FilterExpr} (h : Keeps vpnAddress d added es)
    (e : FilterExpr) : Keeps vpnAddress d (added ++ [e]) (es ++ [e]) where
  kept := by
    intro x hx
    rw [List.mem_append] at hx ⊢
    exact hx.imp_left (h.kept x)
  only := by
    intro x hx
    rw [List.mem_append] at hx ⊢
    obtain hx | hx := hx
    · exact (h.only x hx).imp_left Or.inl
    · exact Or.inl (Or.inr hx)

/-- Defaults are added at every start. -/
theorem Keeps.start {d : Direction} {added es : List FilterExpr} (h : Keeps vpnAddress d added es) :
    Keeps vpnAddress d added (es ++ defaultFilter vpnAddress d) where
  kept := fun x hx => List.mem_append_left _ (h.kept x hx)
  only := by
    intro x hx
    obtain hx | hx := List.mem_append.mp hx
    · exact h.only x hx
    · exact Or.inr hx

/-- A start hands over a text for what was added and the defaults, however often they were. -/
theorem Keeps.denotes {d : Direction} {added es : List FilterExpr} (h : Keeps vpnAddress d added es)
    (hadded : ∀ e ∈ added, Joinable known e)
    (hdefault : ∀ e ∈ defaultFilter vpnAddress d, Joinable known e) :
    Denotes known (calculateOutgoingFilters ((es ++ defaultFilter vpnAddress d).map text))
      (added ++ defaultFilter vpnAddress d) := by
  have hne : es ++ defaultFilter vpnAddress d ≠ [] := by
    apply List.append_ne_nil_of_right_ne_nil
    cases d with
    | outgoing => exact List.cons_ne_nil _ _
    | incoming => exact List.cons_ne_nil _ _
  have hall : ∀ e ∈ es ++ defaultFilter vpnAddress d, Joinable known e := by
    intro e he
    obtain he | he := h.start.only e he
    · exact hadded e he
    · exact hdefault e he
  apply (denotes_joined hne hall).congr
  intro e
  constructor
  · intro he
    exact List.mem_append.mpr (h.start.only e he)
  · intro he
    obtain he | he := List.mem_append.mp he
    · exact h.start.kept e he
    · exact List.mem_append_right _ he

end Defaults

section Calls

variable {vpnAddress : NetAddr}

theorem captureCalls_add (d : Direction) (filter : FilterText)
    (calls : List (CaptureCall FilterText)) (s : CaptureFilters) :
    captureCalls vpnAddress (.add d filter :: calls) s =
      captureCalls vpnAddress calls (addTrafficFilter d filter s) := by
  cases d with
  | outgoing => rfl
  | incoming => rfl

theorem captureCalls_start (d : Direction) (calls : List (CaptureCall FilterText))
    (s : CaptureFilters) :
    captureCalls vpnAddress (.start d :: calls) s =
      (d, calculateOutgoingFilters (s.filters d ++ (defaultFilter vpnAddress d).map text)) ::
        captureCalls vpnAddress calls (startCaptureTraffic vpnAddress d s).2 := by
  have htext : (startCaptureTraffic vpnAddress d s).1 =
      calculateOutgoingFilters (s.filters d ++ (defaultFilter vpnAddress d).map text) := by
    simp [startCaptureTraffic, calculateFilters, applyDefaultFilter, pushFilters]
  rw [← htext]
  cases d with
  | outgoing => rfl
  | incoming => rfl

/-- What the program has asked for at each start: the filters it added for the direction. -/
def requested : List (CaptureCall FilterExpr) → (Direction → List FilterExpr) →
    List (Direction × List FilterExpr)
  | [], _ => []
  | .add d e :: calls, added => requested calls (Function.update added d (added d ++ [e]))
  | .start d :: calls, added => (d, added d) :: requested calls added

variable {known : Test → Bool}

/-- From lists that hold what was added, the strings of all starts denote what was asked for. -/
theorem captureCalls_denotes
    (hdefault : ∀ d, ∀ e ∈ defaultFilter vpnAddress d, Joinable known e)
    {calls : List (CaptureCall FilterExpr)} (hcalls : ∀ d e, .add d e ∈ calls → Joinable known e)
    {added es : Direction → List FilterExpr} {s : CaptureFilters}
    (hadded : ∀ d, ∀ e ∈ added d, Joinable known e) (hs : ∀ d, s.filters d = (es d).map text)
    (hkeeps : ∀ d, Keeps vpnAddress d (added d) (es d)) :
    List.Forall₂ (fun opened asked => opened.1 = asked.1 ∧
        Denotes known opened.2 (asked.2 ++ defaultFilter vpnAddress asked.1))
      (captureCalls vpnAddress (calls.map (CaptureCall.map text)) s) (requested calls added) := by
  induction calls generalizing added es s with
  | nil => exact .nil
  | cons call calls ih =>
    have hlater : ∀ d e, .add d e ∈ calls → Joinable known e := fun d e he =>
      hcalls d e (List.mem_cons_of_mem _ he)
    cases call with
    | add d e =>
      rw [List.map_cons, CaptureCall.map, captureCalls_add, requested]
      have hjoinable : ∀ d', ∀ x ∈ Function.update added d (added d ++ [e]) d', Joinable known x := by
        intro d' x hx
        by_cases hd : d' = d
        · subst hd
          rw [Function.update_self, List.mem_append, List.mem_singleton] at hx
          obtain hx | rfl := hx
          · exact hadded d' x hx
          · exact hcalls d' x (List.mem_cons_self ..)
        · rw [Function.update_of_ne hd] at hx
          exact hadded d' x hx
      have htexts : ∀ d', (addTrafficFilter d e.text s).filters d' =
          (Function.update es d (es d ++ [e]) d').map text := by
        intro d'
        change Function.update s.filters d (s.filters d ++ [e.text]) d' = _
        by_cases hd : d' = d
        · subst hd
          rw [Function.update_self, Function.update_self, hs, List.map_append, List.map_singleton]
        · rw [Function.update_of_ne hd, Function.update_of_ne hd, hs]
      refine ih hlater hjoinable htexts fun d' => ?_
      by_cases hd : d' = d
      · subst hd
        rw [Function.update_self, Function.update_self]
        exact (hkeeps d').add e
      · rw [Function.update_of_ne hd, Function.update_of_ne hd]
        exact hkeeps d'
    | start d =>
      rw [List.map_cons, CaptureCall.map, captureCalls_start, requested, hs, ← List.map_append]
      refine .cons ⟨rfl, (hkeeps d).denotes (hadded d) (hdefault d)⟩ ?_
      have htexts : ∀ d', (startCaptureTraffic vpnAddress d s).2.filters d' =
          (Function.update es d (es d ++ defaultFilter vpnAddress d) d').map text := by
        intro d'
        change Function.update s.filters d
          (s.filters d ++ (defaultFilter vpnAddress d).map text) d' = _
        by_cases hd : d' = d
        · subst hd
          rw [Function.update_self, Function.update_self, hs, List.map_append]
        · rw [Function.update_of_ne hd, Function.update_of_ne hd, hs]
      refine ih hlater hadded htexts fun d' => ?_
      by_cases hd : d' = d
      · subst hd
        rw [Function.update_self]
        exact (hkeeps d').start
      · rw [Function.update_of_ne hd]
        exact hkeeps d'

end Calls

/-- A client that was just made. -/
def CaptureFilters.empty : CaptureFilters := ⟨fun _ => [], fun _ => []⟩

/-- From the start, the strings denote what was asked for. -/
theorem captureCalls_empty {known : Test → Bool} {vpnAddress : NetAddr}
    (haddr : vpnAddress.getAddrFamily = .IPv4 ∨ vpnAddress.getAddrFamily = .IPv6)
    (hknown : ∀ d, ∀ e ∈ defaultFilter vpnAddress d, ∀ t ∈ e.tests, known t = true)
    {calls : List (CaptureCall FilterExpr)} (hcalls : ∀ d e, .add d e ∈ calls → Joinable known e) :
    List.Forall₂ (fun opened asked => opened.1 = asked.1 ∧
        Denotes known opened.2 (asked.2 ++ defaultFilter vpnAddress asked.1))
      (captureCalls vpnAddress (calls.map (CaptureCall.map text)) .empty)
      (requested calls fun _ => []) := by
  have hnone (d : Direction) : Keeps vpnAddress d [] [] :=
    ⟨fun _ he => (List.not_mem_nil he).elim, fun _ he => (List.not_mem_nil he).elim⟩
  exact captureCalls_denotes (defaultFilter_joinable haddr hknown) hcalls
    (fun _ _ he => (List.not_mem_nil he).elim) (fun _ => rfl) hnone

/-- Whatever filters a program adds in whatever order, and however often it starts a capture: as long
as no filter is a disjunction, each string that is handed to the capture library takes exactly the
packets for which all the filters hold that were added for its direction until then, and the default
filters of the direction. -/
theorem captures_requested {known : Test → Bool} {vpnAddress : NetAddr}
    (haddr : vpnAddress.getAddrFamily = .IPv4 ∨ vpnAddress.getAddrFamily = .IPv6)
    (hknown : ∀ d, ∀ e ∈ defaultFilter vpnAddress d, ∀ t ∈ e.tests, known t = true)
    {calls : List (CaptureCall FilterExpr)}
    (hcalls : ∀ d e, .add d e ∈ calls → Rendered known false e ∧ ¬ e.Disjunctive) :
    List.Forall₂ (fun opened asked => opened.1 = asked.1 ∧
        Denotes known opened.2 (asked.2 ++ defaultFilter vpnAddress asked.1))
      (captureCalls vpnAddress (calls.map (CaptureCall.map text)) .empty)
      (requested calls fun _ => []) :=
  captureCalls_empty haddr hknown hcalls

/-- A filter that is added once, and two starts: the defaults are written twice and hold once. -/
theorem captures_requested_twice : List.Forall₂ (fun opened asked => opened.1 = asked.1 ∧
      Denotes (fun _ => true) opened.2 (asked.2 ++ defaultFilter ⟨[10, 0, 0, 1]⟩ asked.1))
    (captureCalls ⟨[10, 0, 0, 1]⟩
      [.add .outgoing (FilterExpr.atom .ipv4).text, .start .outgoing, .start .outgoing] .empty)
    [(.outgoing, [.atom .ipv4]), (.outgoing, [.atom .ipv4])] := by
  have hcalls : ∀ d e, CaptureCall.add d e ∈
      [.add .outgoing (FilterExpr.atom .ipv4), .start .outgoing, .start .outgoing] →
        Rendered (fun _ => true) false e ∧ ¬ e.Disjunctive := by
    intro d e he
    simp only [List.mem_cons, CaptureCall.add.injEq, reduceCtorEq, List.not_mem_nil, or_false] at he
    obtain ⟨rfl, rfl⟩ := he
    exact rendered_single .ipv4 trivial rfl (fun _ _ => rfl) false
  exact captures_requested (Or.inl rfl) (fun _ _ _ _ _ => rfl) hcalls

section Site

variable {env : Test → Bool} {vpnAddress : NetAddr}

/-- The address that the default filters name. -/
abbrev siteAddress : NetAddr := ⟨[195, 82, 146, 78]⟩

/-- Each field of a packet has one value. -/
def OneValue (env : Test → Bool) : Prop :=
  ∀ field value value', env (.compare field value) = true → env (.compare field value') = true →
    value = value'

/-- Addresses of four bytes with the same text are the same. -/
theorem NetAddr.eq_of_toString {a b : NetAddr} (ha : a.ip.length = 4) (hb : b.ip.length = 4)
    (h : a.toString.toList = b.toString.toList) : a = b := by
  have hparse {c : NetAddr} (hc : c.ip.length = 4) {s : String}
      (hs : s.toList = c.toString.toList) : Tools.parseNetAddr s = .ok c.ip := by
    have hne : c.ip ≠ [] := List.ne_nil_of_length_pos (by omega)
    rw [NetAddr.toString_toList hne] at hs
    exact (isComponentText_dottedDecimals hs).parseNetAddr (by omega) (by omega)
  have hsame := (hparse ha rfl).symm.trans (hparse hb h)
  obtain ⟨ip⟩ := a
  obtain ⟨ip'⟩ := b
  cases Except.ok.inj hsame
  rfl

theorem holds_single {a : FilterAtom} {t : Test} (h : a.tests = [t]) :
    (FilterExpr.atom a).holds env = env t := by
  rw [holds, meaning, h, List.any_cons, List.any_nil, Bool.or_false]
  rfl

theorem holds_not_single {a : FilterAtom} {t : Test} (h : a.tests = [t]) :
    (FilterExpr.not (.atom a)).holds env = !env t := by
  rw [holds, meaning, meaning, h, List.any_cons, List.any_nil, Bool.or_false]
  rfl

/-- What the outgoing defaults demand of a packet. -/
theorem holds_outgoing (hfamily : vpnAddress.getAddrFamily = .IPv4)
    (h : ∀ e ∈ defaultFilter vpnAddress .outgoing, e.holds env = true) :
    env (.compare "ip.SrcAddr".toList vpnAddress.toString.toList) = false ∧
      env (.flag "outbound".toList) = true ∧
      env (.compare "tcp.DstPort".toList "22".toList) = false ∧
      env (.flag "loopback".toList) = false ∧
      env (.compare "ip.DstAddr".toList siteAddress.toString.toList) = true ∧
      env (.compare "tcp.DstPort".toList "8080".toList) = true := by
  simp only [defaultFilter, defaultOutgoingFilter, List.forall_mem_cons] at h
  obtain ⟨hsource, hout, hssh, hlocal, hdest, hport, -⟩ := h
  have htests : FilterAtom.tests (.source vpnAddress) =
      [.compare "ip.SrcAddr".toList vpnAddress.toString.toList] := if_pos hfamily
  rw [holds_not_single htests, Bool.not_eq_true'] at hsource
  rw [holds_single (a := .outgoingTraffic) rfl] at hout
  rw [holds_not_single (a := .tcpDstPort 22) rfl, Bool.not_eq_true'] at hssh
  rw [holds_not_single (a := .localTraffic) rfl, Bool.not_eq_true'] at hlocal
  rw [holds_single (a := .dest siteAddress) rfl] at hdest
  rw [holds_single (a := .tcpDstPort 8080) rfl] at hport
  exact ⟨hsource, hout, hssh, hlocal, hdest, hport⟩

/-- What the incoming defaults demand of a packet. -/
theorem holds_incoming (hfamily : vpnAddress.getAddrFamily = .IPv4)
    (h : ∀ e ∈ defaultFilter vpnAddress .incoming, e.holds env = true) :
    env (.compare "ip.SrcAddr".toList vpnAddress.toString.toList) = true ∧
      env (.compare "ip.SrcAddr".toList siteAddress.toString.toList) = true := by
  simp only [defaultFilter, defaultIncomingFilter, List.forall_mem_cons] at h
  obtain ⟨-, hsource, -, -, hsite, -⟩ := h
  have htests : FilterAtom.tests (.source vpnAddress) =
      [.compare "ip.SrcAddr".toList vpnAddress.toString.toList] := if_pos hfamily
  rw [holds_single htests] at hsource
  rw [holds_single (a := .source siteAddress) rfl] at hsite
  exact ⟨hsource, hsite⟩

end Site

/-- Unless the server has the address that the default filters name: whatever filters a program adds
and however often it starts its captures, a packet that is captured is an outgoing TCP packet to that
address. It is no packet of the tunnel, and nothing at all is captured of incoming traffic. -/
theorem captures_avoid_tunnel {known : Test → Bool} {vpnAddress : NetAddr}
    (hsize : vpnAddress.ip.length = 4) (hother : vpnAddress ≠ siteAddress)
    (hknown : ∀ d, ∀ e ∈ defaultFilter vpnAddress d, ∀ t ∈ e.tests, known t = true)
    {calls : List (CaptureCall FilterExpr)}
    (hcalls : ∀ d e, .add d e ∈ calls → Rendered known false e ∧ ¬ e.Disjunctive) :
    ∀ opened ∈ captureCalls vpnAddress (calls.map (CaptureCall.map text)) .empty,
      ∃ clauses, parse known (lex opened.2) = some clauses ∧
        ∀ env, OneValue env → eval env clauses = true → opened.1 = .outgoing ∧
          env (.flag "outbound".toList) = true ∧ env (.flag "loopback".toList) = false ∧
          env (.compare "ip.DstAddr".toList siteAddress.toString.toList) = true ∧
          env (.compare "tcp.DstPort".toList "8080".toList) = true ∧
          env (.compare "ip.DstAddr".toList vpnAddress.toString.toList) = false ∧
          env (.compare "ip.SrcAddr".toList vpnAddress.toString.toList) = false := by
  intro opened hopened
  have hfamily : vpnAddress.getAddrFamily = .IPv4 := if_pos hsize
  have hall := captureCalls_empty (Or.inl hfamily) hknown hcalls
  obtain ⟨i, hi, rfl⟩ := List.getElem_of_mem hopened
  have hlength := hall.length_eq
  obtain ⟨hdirection, clauses, hparsed, heval⟩ := hall.get hi (by omega)
  refine ⟨clauses, hparsed, ?_⟩
  intro env hone hcaptured
  rw [heval, List.all_append, Bool.and_eq_true] at hcaptured
  have hdefaults := List.all_eq_true.mp hcaptured.2
  rw [← hdirection] at hdefaults
  change ∀ e ∈ defaultFilter vpnAddress (captureCalls _ _ _)[i].1, _ at hdefaults
  cases hd : (captureCalls vpnAddress (calls.map (CaptureCall.map text)) .empty)[i].1 with
  | outgoing =>
    rw [hd] at hdefaults
    obtain ⟨hsource, hout, -, hlocal, hdest, hport⟩ := holds_outgoing hfamily hdefaults
    refine ⟨rfl, hout, hlocal, hdest, hport, ?_, hsource⟩
    rw [Bool.eq_false_iff]
    intro hserver
    exact hother (NetAddr.eq_of_toString hsize rfl (hone _ _ _ hserver hdest))
  | incoming =>
    rw [hd] at hdefaults
    obtain ⟨hsource, hsite⟩ := holds_incoming hfamily hdefaults
    exact absurd (NetAddr.eq_of_toString hsize rfl (hone _ _ _ hsource hsite)) hother

/-- A client of the server 10.0.0.1 captures nothing of incoming traffic. -/
theorem captures_avoid_tunnel_incoming : ∃ clauses,
    parse (fun _ => true) (lex (startCaptureIncomingTraffic ⟨[10, 0, 0, 1]⟩ .empty).1) =
        some clauses ∧ ∀ env, OneValue env → eval env clauses = false := by
  have hcalls : ∀ d e, CaptureCall.add d e ∈ [CaptureCall.start .incoming] →
      Rendered (fun _ => true) false e ∧ ¬ e.Disjunctive := by
    intro d e he
    cases List.mem_singleton.mp he
  have hsize : (NetAddr.mk [10, 0, 0, 1]).ip.length = 4 := rfl
  obtain ⟨clauses, hparsed, hcaptured⟩ := captures_avoid_tunnel hsize (by decide)
    (fun _ _ _ _ _ => rfl) hcalls _ (List.mem_singleton_self _)
  refine ⟨clauses, hparsed, ?_⟩
  intro env hone
  rw [Bool.eq_false_iff]
  intro hholds
  cases (hcaptured env hone hholds).1

end QVPN
