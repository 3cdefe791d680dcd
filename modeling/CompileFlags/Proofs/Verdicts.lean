import CompileFlags.Filter
import CompileFlags.Proofs.Results
import Mathlib.Data.List.Induction

/-!
# Verdicts of a filter

A filter is made by calls, each of which adds a rule or fails. A call with a pattern that cannot be
read leaves the filter as it was, so the rules of a filter are those of the calls that went well. Of
these, the last one that matches a text decides about it. Where none does, it counts whether there
is a rule that includes anything at all.

* `Filter.rules_ofCalls` — the rules of a filter are those of the calls that went well, in order.
* `IsLastMatch` — the last of some rules that matches a text.
* `Filter.accepts_of_isLastMatch` and `Filter.accepts_of_no_match` — who decides.
* `Filter.accepts_push_of_not_covers` — a rule that does not match changes a verdict in one case.
* `Filter.verdict_of_calls` — the verdict of a filter after any calls.
-/

namespace CompileFlags

/-! ## The rule that decides -/

/-- Whether a rule matches a text. -/
def Rule.covers (rule : Rule) (subject : String) : Bool := rule.pattern.isMatch subject

/-- The last of some rules that matches a text. -/
def IsLastMatch (rules : List Rule) (subject : String) (rule : Rule) : Prop :=
  ∃ before after, rules = before ++ rule :: after ∧ rule.covers subject = true ∧
    ∀ r ∈ after, r.covers subject = false

section

variable {rules : List Rule} {rule : Rule} {subject : String}

theorem IsLastMatch.mem (h : IsLastMatch rules subject rule) : rule ∈ rules := by
  obtain ⟨before, after, rfl, -, -⟩ := h
  exact List.mem_append_right _ List.mem_cons_self

theorem IsLastMatch.covers (h : IsLastMatch rules subject rule) : rule.covers subject = true := by
  obtain ⟨before, after, -, hrule, -⟩ := h
  exact hrule

theorem isLastMatch_concat (rules : List Rule) (h : rule.covers subject = true) :
    IsLastMatch (rules ++ [rule]) subject rule :=
  ⟨rules, [], rfl, h, fun _ hr => absurd hr List.not_mem_nil⟩

/-- A rule behind it that does not match changes nothing. -/
theorem IsLastMatch.concat (h : IsLastMatch rules subject rule) {next : Rule}
    (hnext : next.covers subject = false) : IsLastMatch (rules ++ [next]) subject rule := by
  obtain ⟨before, after, rfl, hrule, hafter⟩ := h
  refine ⟨before, after ++ [next], by simp, hrule, ?_⟩
  intro r hr
  rcases List.mem_append.1 hr with hr | hr
  · exact hafter r hr
  · rw [List.mem_singleton.1 hr]
    exact hnext

/-- There is a last rule that matches, unless there is none at all. -/
theorem exists_isLastMatch_or (rules : List Rule) (subject : String) :
    (∃ rule, IsLastMatch rules subject rule) ∨ ∀ r ∈ rules, r.covers subject = false := by
  induction rules using List.reverseRecOn with
  | nil => exact .inr fun r hr => absurd hr List.not_mem_nil
  | append_singleton rules last ih =>
    cases hlast : last.covers subject with
    | true => exact .inl ⟨last, isLastMatch_concat rules hlast⟩
    | false =>
      rcases ih with ⟨rule, hrule⟩ | hnone
      · exact .inl ⟨rule, hrule.concat hlast⟩
      · refine .inr fun r hr => ?_
        rcases List.mem_append.1 hr with hr | hr
        · exact hnone r hr
        · rw [List.mem_singleton.1 hr]
          exact hlast

end

namespace Filter

/-- The verdict after one more rule. -/
def verdictAfter (subject : String) (verdict : Bool) (rule : Rule) : Bool :=
  if rule.covers subject then rule.includes else verdict

theorem accepts_eq_foldl (f : Filter) (subject : String) :
    f.accepts subject =
      f.rules.foldl (verdictAfter subject) (f.rules.all fun rule => !rule.includes) := rfl

/-- Rules that do not match leave a verdict as it is. -/
theorem foldl_verdictAfter_of_no_match {rules : List Rule} {subject : String}
    (h : ∀ r ∈ rules, r.covers subject = false) (verdict : Bool) :
    rules.foldl (verdictAfter subject) verdict = verdict := by
  induction rules with
  | nil => rfl
  | cons rule rest ih =>
    have hrule : verdictAfter subject verdict rule = verdict :=
      if_neg (by rw [h rule List.mem_cons_self]; exact Bool.false_ne_true)
    rw [List.foldl_cons, hrule]
    exact ih fun r hr => h r (List.mem_cons_of_mem _ hr)

variable {f : Filter} {rule : Rule} {subject : String}

/-- The last rule that matches decides. -/
theorem accepts_of_isLastMatch (h : IsLastMatch f.rules subject rule) :
    f.accepts subject = rule.includes := by
  obtain ⟨before, after, hrules, hrule, hafter⟩ := h
  rw [accepts_eq_foldl, hrules, List.foldl_append, List.foldl_cons,
    foldl_verdictAfter_of_no_match hafter, verdictAfter, if_pos hrule]

/-- Where no rule matches, a text passes exactly if no rule includes anything. -/
theorem accepts_of_no_match (h : ∀ r ∈ f.rules, r.covers subject = false) :
    f.accepts subject = true ↔ ∀ r ∈ f.rules, r.includes = false := by
  rw [accepts_eq_foldl, foldl_verdictAfter_of_no_match h, List.all_eq_true]
  simp only [Bool.not_eq_true']

/-- With a rule that includes something, only what such a rule matches passes. -/
theorem exists_inclusion_of_accepts (hf : ∃ r ∈ f.rules, r.includes = true)
    (h : f.accepts subject = true) :
    ∃ r ∈ f.rules, r.includes = true ∧ r.covers subject = true := by
  rcases exists_isLastMatch_or f.rules subject with ⟨rule, hrule⟩ | hnone
  · rw [accepts_of_isLastMatch hrule] at h
    exact ⟨rule, hrule.mem, h, hrule.covers⟩
  · obtain ⟨r, hr, hincludes⟩ := hf
    rw [(accepts_of_no_match hnone).1 h r hr] at hincludes
    cases hincludes

/-- With nothing but exclusions, exactly what none of them matches passes. -/
theorem accepts_iff_of_exclusions (hf : ∀ r ∈ f.rules, r.includes = false) :
    f.accepts subject = true ↔ ∀ r ∈ f.rules, r.covers subject = false := by
  rcases exists_isLastMatch_or f.rules subject with ⟨rule, hrule⟩ | hnone
  · rw [accepts_of_isLastMatch hrule, hf rule hrule.mem]
    constructor
    · intro h
      cases h
    · intro h
      rw [← h rule hrule.mem]
      exact hrule.covers
  · exact iff_of_true ((accepts_of_no_match hnone).2 hf) hnone

/-! ## One more rule -/

/-- A new rule decides about what it matches. -/
theorem accepts_push_of_covers (f : Filter) (h : rule.covers subject = true) :
    (f.push rule).accepts subject = rule.includes :=
  accepts_of_isLastMatch (isLastMatch_concat f.rules h)

/-- If none of the old rules matches, and the new one does not either, none of all does. -/
theorem no_match_push (hnone : ∀ r ∈ f.rules, r.covers subject = false)
    (hrule : rule.covers subject = false) : ∀ r ∈ (f.push rule).rules, r.covers subject = false :=
  List.forall_mem_append.2 ⟨hnone, List.forall_mem_singleton.2 hrule⟩

/-- A new rule that does not match changes nothing, unless it is the first one that includes
something and no other matches. -/
theorem accepts_push_of_not_covers (hrule : rule.covers subject = false)
    (h : rule.includes = true →
      (∃ r ∈ f.rules, r.includes = true) ∨ ∃ r ∈ f.rules, r.covers subject = true) :
    (f.push rule).accepts subject = f.accepts subject := by
  rcases exists_isLastMatch_or f.rules subject with ⟨last, hlast⟩ | hnone
  · have hpushed : IsLastMatch (f.push rule).rules subject last := hlast.concat hrule
    rw [accepts_of_isLastMatch hlast, accepts_of_isLastMatch hpushed]
  · -- nothing matches, so only whether there is a rule that includes something can change
    have hsame : (∀ r ∈ (f.push rule).rules, r.includes = false) ↔
        ∀ r ∈ f.rules, r.includes = false := by
      constructor
      · intro hall
        exact (List.forall_mem_append.1 hall).1
      · intro hall
        refine List.forall_mem_append.2 ⟨hall, List.forall_mem_singleton.2 ?_⟩
        by_contra hincludes
        rcases h (Bool.not_eq_false _ ▸ hincludes) with ⟨r, hr, hr'⟩ | ⟨r, hr, hr'⟩
        · rw [hall r hr] at hr'
          cases hr'
        · rw [hnone r hr] at hr'
          cases hr'
    rw [Bool.eq_iff_iff, accepts_of_no_match (no_match_push hnone hrule), hsame,
      accepts_of_no_match hnone]

/-- The first rule that includes something shuts out what no rule matches. -/
theorem accepts_push_of_first_inclusion (hincludes : rule.includes = true)
    (hf : ∀ r ∈ f.rules, r.includes = false) (hnone : ∀ r ∈ f.rules, r.covers subject = false)
    (hrule : rule.covers subject = false) :
    f.accepts subject = true ∧ (f.push rule).accepts subject = false := by
  refine ⟨(accepts_of_no_match hnone).2 hf, ?_⟩
  rw [← Bool.not_eq_true, accepts_of_no_match (no_match_push hnone hrule)]
  intro hall
  have hfalse := hall rule (List.mem_append_right _ List.mem_cons_self)
  rw [hincludes] at hfalse
  cases hfalse

/-! ## Calls -/

/-- A call for one more rule, with its pattern as a text. -/
structure Call where
  includes : Bool
  text : String

/-- The rule that is called for, if its pattern can be read. -/
def Call.rule? (c : Call) : Option Rule :=
  (Pattern.parse c.text).toOption.map fun pattern => ⟨pattern, c.includes⟩

/-- How a call ends, and the filter behind it. -/
def call (f : Filter) (c : Call) : Except Fault Unit × Filter :=
  match f.add c.includes c.text with
  | .ok f' => (.ok (), f')
  | .error e => (.error e, f)

/-- The filter that is made by calls. -/
def ofCalls (calls : List Call) : Filter := calls.foldl (fun f c => (f.call c).2) {}

/-- The rules of the calls that go well. -/
def accepted (calls : List Call) : List Rule := calls.filterMap Call.rule?

theorem call_of_parse_ok (f : Filter) {c : Call} {p : Pattern} (h : Pattern.parse c.text = .ok p) :
    f.call c = (.ok (), f.push ⟨p, c.includes⟩) := by
  rw [call, add, h]

theorem call_of_parse_error (f : Filter) {c : Call} {e : Pattern.Error}
    (h : Pattern.parse c.text = .error e) :
    f.call c =
      (.error ⟨[if c.includes then .includePattern else .excludePattern], .pattern e⟩, f) := by
  rw [call, add, h]
  rfl

/-- A call adds the rule that is called for, or none. -/
theorem rules_call (f : Filter) (c : Call) : (f.call c).2.rules = f.rules ++ c.rule?.toList := by
  cases h : Pattern.parse c.text with
  | ok p =>
    rw [call_of_parse_ok f h, Call.rule?, h]
    rfl
  | error e =>
    rw [call_of_parse_error f h, Call.rule?, h]
    exact (List.append_nil _).symm

theorem ofCalls_concat (calls : List Call) (c : Call) :
    ofCalls (calls ++ [c]) = ((ofCalls calls).call c).2 := by
  rw [ofCalls, List.foldl_append]
  rfl

theorem accepted_concat (calls : List Call) (c : Call) :
    accepted (calls ++ [c]) = accepted calls ++ c.rule?.toList := by
  rw [accepted, List.filterMap_append, accepted]
  cases h : c.rule? <;> simp [h]

/-- The rules of a filter are those of the calls that went well, in order. -/
theorem rules_ofCalls (calls : List Call) : (ofCalls calls).rules = accepted calls := by
  induction calls using List.reverseRecOn with
  | nil => rfl
  | append_singleton calls c ih =>
    rw [ofCalls_concat, rules_call, ih, accepted_concat]

theorem exists_parse_of_rule? {c : Call} {rule : Rule} (h : c.rule? = some rule) :
    ∃ p, Pattern.parse c.text = .ok p ∧ rule = ⟨p, c.includes⟩ := by
  obtain ⟨p, hp, rfl⟩ := Option.map_eq_some_iff.1 h
  exact ⟨p, toOption_eq_some_iff.1 hp, rfl⟩

/-- **The last rule that matches a text decides about it.** A call with a pattern that cannot be
read ends with an error and leaves the filter as it was; the rules of the others are those of the
filter. If one of them matches a text, the last one that does decides; otherwise the text passes
exactly if none of them includes anything. So with a rule that includes something, a text passes
only if such a rule matches it, and with nothing but exclusions it passes exactly if none matches
it. One more rule decides about what it matches and changes no other verdict, except that the first
rule that includes something shuts out what no rule matches and what has passed until then. -/
theorem verdict_of_calls (calls : List Call) (subject : String) :
    (ofCalls calls).rules = accepted calls ∧
    (∀ c e, Pattern.parse c.text = .error e →
      (ofCalls calls).call c =
        (.error ⟨[if c.includes then .includePattern else .excludePattern], .pattern e⟩,
          ofCalls calls) ∧
      ofCalls (calls ++ [c]) = ofCalls calls) ∧
    ((∃ rule, IsLastMatch (accepted calls) subject rule) ∨
      ∀ r ∈ accepted calls, r.covers subject = false) ∧
    (∀ rule, IsLastMatch (accepted calls) subject rule →
      (ofCalls calls).accepts subject = rule.includes) ∧
    ((∀ r ∈ accepted calls, r.covers subject = false) →
      ((ofCalls calls).accepts subject = true ↔ ∀ r ∈ accepted calls, r.includes = false)) ∧
    ((∃ r ∈ accepted calls, r.includes = true) → (ofCalls calls).accepts subject = true →
      ∃ r ∈ accepted calls, r.includes = true ∧ r.covers subject = true) ∧
    ((∀ r ∈ accepted calls, r.includes = false) →
      ((ofCalls calls).accepts subject = true ↔
        ∀ r ∈ accepted calls, r.covers subject = false)) ∧
    ∀ c rule, c.rule? = some rule →
      ((ofCalls calls).call c).1 = .ok () ∧
      (rule.covers subject = true → (ofCalls (calls ++ [c])).accepts subject = rule.includes) ∧
      (rule.covers subject = false →
        (rule.includes = true → (∃ r ∈ accepted calls, r.includes = true) ∨
          ∃ r ∈ accepted calls, r.covers subject = true) →
        (ofCalls (calls ++ [c])).accepts subject = (ofCalls calls).accepts subject) ∧
      (rule.covers subject = false → rule.includes = true →
        (∀ r ∈ accepted calls, r.includes = false) →
        (∀ r ∈ accepted calls, r.covers subject = false) →
        (ofCalls calls).accepts subject = true ∧
          (ofCalls (calls ++ [c])).accepts subject = false) := by
  rw [← rules_ofCalls]
  refine ⟨rfl, ?_, exists_isLastMatch_or _ _, fun _ => accepts_of_isLastMatch,
    accepts_of_no_match, exists_inclusion_of_accepts, accepts_iff_of_exclusions, ?_⟩
  · intro c e he
    rw [ofCalls_concat, call_of_parse_error _ he]
    exact ⟨rfl, rfl⟩
  · intro c rule hc
    obtain ⟨p, hp, rfl⟩ := exists_parse_of_rule? hc
    rw [ofCalls_concat, call_of_parse_ok _ hp]
    exact ⟨rfl, accepts_push_of_covers _, accepts_push_of_not_covers,
      fun hrule hincludes hf hnone => accepts_push_of_first_inclusion hincludes hf hnone hrule⟩

/-- A call for a rule that includes warnings. -/
def includeWarnings : Call := ⟨true, "^-W"⟩

/-- A call for a rule that excludes whatever is about shadowing. -/
def excludeShadowing : Call := ⟨false, "shadow"⟩

/-- A call with a pattern that cannot be read. -/
def excludeUnreadable : Call := ⟨false, "("⟩

theorem exists_rule?_includeWarnings :
    ∃ rule, includeWarnings.rule? = some rule ∧ rule.includes = true ∧
      rule.covers "-I" = false := by
  obtain ⟨rule, hrule, h⟩ := Option.map_eq_some_iff.1
    (show includeWarnings.rule?.map (fun r => (r.includes, r.covers "-I")) = some (true, false) by
      decide +kernel)
  obtain ⟨hincludes, hcovers⟩ := Prod.mk.inj h
  exact ⟨rule, hrule, hincludes, hcovers⟩

theorem exists_rule?_excludeShadowing :
    ∃ rule, excludeShadowing.rule? = some rule ∧ rule.includes = false ∧
      rule.covers "-Wshadow" = true := by
  obtain ⟨rule, hrule, h⟩ := Option.map_eq_some_iff.1
    (show excludeShadowing.rule?.map (fun r => (r.includes, r.covers "-Wshadow")) =
      some (false, true) by decide +kernel)
  obtain ⟨hincludes, hcovers⟩ := Prod.mk.inj h
  exact ⟨rule, hrule, hincludes, hcovers⟩

theorem exists_parse_excludeUnreadable :
    ∃ e, Pattern.parse excludeUnreadable.text = .error e := by
  cases h : Pattern.parse excludeUnreadable.text with
  | error e => exact ⟨e, rfl⟩
  | ok p =>
    have hnone : (Pattern.parse excludeUnreadable.text).toOption.isNone = true := by decide +kernel
    rw [h] at hnone
    cases hnone

/-- The first rule that includes something shuts out what it does not match, a call that fails
changes nothing, and the last rule that matches decides. -/
theorem verdict_of_three_calls :
    ((ofCalls []).accepts "-I" = true ∧ (ofCalls [includeWarnings]).accepts "-I" = false) ∧
    ofCalls [includeWarnings, excludeUnreadable] = ofCalls [includeWarnings] ∧
    ∃ rule, IsLastMatch (accepted [includeWarnings, excludeUnreadable, excludeShadowing])
        "-Wshadow" rule ∧
      (ofCalls [includeWarnings, excludeUnreadable, excludeShadowing]).accepts "-Wshadow" =
        false := by
  obtain ⟨warnings, hwarnings, hincludes, hnot⟩ := exists_rule?_includeWarnings
  obtain ⟨shadowing, hshadowing, hexcludes, hcovers⟩ := exists_rule?_excludeShadowing
  obtain ⟨e, he⟩ := exists_parse_excludeUnreadable
  obtain ⟨-, -, -, -, -, -, -, hfirst⟩ := verdict_of_calls [] "-I"
  obtain ⟨-, hfails, -⟩ := verdict_of_calls [includeWarnings] "-I"
  obtain ⟨-, -, -, hlast, -⟩ :=
    verdict_of_calls [includeWarnings, excludeUnreadable, excludeShadowing] "-Wshadow"
  have hmatch : IsLastMatch (accepted [includeWarnings, excludeUnreadable, excludeShadowing])
      "-Wshadow" shadowing := by
    have hrules := accepted_concat [includeWarnings, excludeUnreadable] excludeShadowing
    rw [hshadowing] at hrules
    exact hrules ▸ isLastMatch_concat _ hcovers
  refine ⟨?_, (hfails _ e he).2, shadowing, hmatch, (hlast shadowing hmatch).trans hexcludes⟩
  exact (hfirst _ warnings hwarnings).2.2.2 hnot hincludes (by simp [accepted]) (by simp [accepted])

end Filter

end CompileFlags
