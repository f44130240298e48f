import MqttGateway.Proofs.Access.Priorities
import MqttGateway.Proofs.Pattern.Exactly
/-!
# Exact conditions

Main statement: a rule that asks for nothing but the exact value of one field concerns the sessions
that have this value and no others, whatever characters it is made of and whatever pattern stands
beside it.
-/
namespace MqttGateway.Access

/-- Conditions on the exact value of one field and on nothing else. A pattern for the same field may
stand beside it. -/
def Conditions.exact (value : String) (beside : Option String) : PatternField → Conditions
  | .username => { username := some value, usernamePattern := beside }
  | .clientId => { clientId := some value, clientIdPattern := beside }
  | .commonName => { commonName := some value, commonNamePattern := beside }

def PatternField.Holds (s : Session) (value : String) : PatternField → Prop
  | .username => s.username ≠ "" ∧ s.username = value
  | .clientId => s.id = value
  | .commonName => ∃ c, s.certificate = some c ∧ c.subject.commonName? = some value

namespace CompiledRule

theorem compilePattern_exact_eq_ok_iff {value : String} {beside : Option String}
    {found : Option Pattern} : compilePattern (some value) beside = .ok found ↔
      ¬ Pattern.weightLimit < (Pattern.exactly value).weight ∧
        found = some (Pattern.exactly value) := by
  rw [compilePattern, map_eq_ok_iff]
  simp only [Pattern.ofExact_eq_ok_iff]
  constructor
  · rintro ⟨p, ⟨hlight, rfl⟩, rfl⟩
    exact ⟨hlight, rfl⟩
  · rintro ⟨hlight, rfl⟩
    exact ⟨_, ⟨hlight, rfl⟩, rfl⟩

theorem fits_exactly_iff {value : String} {text : Option String} :
    fits (some (Pattern.exactly value)) text = true ↔ text = some value := by
  cases text with
  | none => exact ⟨nofun, nofun⟩
  | some text => rw [fits, Pattern.isFoundIn_exactly_iff, Option.some_inj]

def only (rule : Rule) (p : Pattern) : PatternField → CompiledRule
  | .username => ⟨rule, some p, none, none, none⟩
  | .clientId => ⟨rule, none, some p, none, none⟩
  | .commonName => ⟨rule, none, none, some p, none⟩

variable {r : Rule} {field : PatternField} {value : String} {beside : Option String}

/-- What stands beside an exact value decides nothing about the rule. -/
theorem ofRule_exact_eq_ok_iff {c : CompiledRule} :
    ofRule { r with conditions := .exact value beside field } = .ok c ↔
      ¬ Pattern.weightLimit < (Pattern.exactly value).weight ∧
        c = only { r with conditions := .exact value beside field } (.exactly value) field := by
  have hunasked : ∀ found, compilePattern none none = .ok found ↔ found = none := by
    intro found
    rw [compilePattern, Except.ok.injEq, eq_comm]
  have hanywhere : ∀ network, compileNetwork none = some network ↔ network = none := by
    intro network
    rw [compileNetwork, Option.some_inj, eq_comm]
  rw [ofRule_eq_ok_iff]
  cases field <;>
    simp only [Conditions.exact, compilePattern_exact_eq_ok_iff, hunasked, hanywhere, only] <;>
    simp

/-- Of the conditions of such a rule only the one on its field has to be looked at. -/
theorem fitsSession_only_iff {s : Session} :
    (only r (.exactly value) field).fitsSession s = true ↔ field.Holds s value := by
  cases field with
  | username =>
    have hnamed : (if s.username = "" then none else some s.username) = some value ↔
        s.username ≠ "" ∧ s.username = value := by
      split <;> simp_all
    simp only [only, fitsSession, Bool.and_eq_true, fits_exactly_iff, hnamed]
    simp [PatternField.Holds, fits, covers]
  | clientId =>
    simp only [only, fitsSession, Bool.and_eq_true, fits_exactly_iff]
    simp [PatternField.Holds, fits, covers]
  | commonName =>
    simp only [only, fitsSession, Bool.and_eq_true, fits_exactly_iff]
    simp [PatternField.Holds, fits, covers, Session.commonName?, Option.bind_eq_some_iff]

/-- A rule on the exact value of a field fits the sessions that have it, whichever characters the
value is made of. A pattern beside it does nothing, also when there is no such pattern. The value is
compared by the pattern that it reads as when it is escaped and put between anchors. -/
theorem exact_fits_iff {c : CompiledRule}
    (h : ofRule { r with conditions := .exact value beside field } = .ok c) :
    (∀ s, c.fitsSession s = true ↔ field.Holds s value) ∧
    (∀ other, ∃ c', ofRule { r with conditions := .exact value other field } = .ok c' ∧
      c'.fitsSession = c.fitsSession) ∧
    compilePattern (some value) beside =
      (Pattern.ofText ("^" ++ Pattern.escaped value ++ "$")).map some := by
  obtain ⟨hlight, rfl⟩ := ofRule_exact_eq_ok_iff.mp h
  refine ⟨fun s => fitsSession_only_iff, ?_, ?_⟩
  · intro other
    have hother : ofRule { r with conditions := .exact value other field } =
        .ok (only { r with conditions := .exact value other field } (.exactly value) field) :=
      ofRule_exact_eq_ok_iff.mpr ⟨hlight, rfl⟩
    have hsame : ∀ s, (only { r with conditions := .exact value other field }
        (.exactly value) field).fitsSession s =
        (only { r with conditions := .exact value beside field }
          (.exactly value) field).fitsSession s := by
      intro s
      rw [Bool.eq_iff_iff, fitsSession_only_iff, fitsSession_only_iff]
    exact ⟨_, hother, funext hsame⟩
  · rw [Pattern.ofText_escaped, compilePattern]

/-- About a username with signs of patterns, a line break and a letter beyond ASCII. What stands
beside it is no pattern. -/
def oddRule : Rule where
  name := "odd"
  conditions := .exact "a.b|(\n\u00fc" (some "(") .username
  verdict := .deny

theorem odd_username_fits : ∃ c, ofRule oddRule = .ok c ∧
    c.fitsSession { username := "a.b|(\n\u00fc" } = true ∧
    c.fitsSession { username := "aXb|(\n\u00fc" } = false ∧
    c.fitsSession { username := "a.b|(\n\u00fc\n" } = false ∧
    Pattern.escaped "a.b|(\n\u00fc" = "a\\.b\\|\\(\n\u00fc" := by
  have hcompiles : ofRule
      { oddRule with conditions := .exact "a.b|(\n\u00fc" (some "(") .username } =
      .ok (only oddRule (.exactly "a.b|(\n\u00fc") .username) :=
    ofRule_exact_eq_ok_iff.mpr ⟨by decide +kernel, rfl⟩
  obtain ⟨hfits, -, -⟩ := exact_fits_iff hcompiles
  refine ⟨_, hcompiles, (hfits _).mpr ⟨by decide, rfl⟩, ?_, ?_, by decide +kernel⟩
  all_goals
    rw [Bool.eq_false_iff, ne_eq, hfits]
    rintro ⟨-, hsame⟩
    exact absurd hsame (by decide)

end CompiledRule
end MqttGateway.Access
