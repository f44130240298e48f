import MqttGateway.Proofs.Json.Shapes
import MqttGateway.Proofs.Text.Utf8
import MqttGateway.Settings.Written
/-!
# Loading written settings

Main statement: settings are loaded as they were written, with every part of every rule. Nothing is
left out, falls back to its usual value or ends up in place of something else.
-/
namespace MqttGateway.Settings

open Json Json.Shape Json.Field

/-! ## The parts -/

theorem optional_string_lawful : (Shape.optional .string).Lawful :=
  optional_lawful string_lawful fun _ => nofun

theorem listenerShape_lawful : listenerShape.Lawful :=
  Record.Lawful.shape_lawful {
    nodup := by decide
    required := List.nil_subset _
    fields := carries_of_cons string_lawful <| carries_of_cons string_lawful .nil
    complete := fun _ => rfl }

theorem tlsShape_lawful : tlsShape.Lawful :=
  Record.Lawful.shape_lawful {
    nodup := by decide
    required := List.nil_subset _
    fields := carries_of_cons optional_string_lawful <| carries_of_cons optional_string_lawful <|
      carries_of_cons optional_string_lawful .nil
    complete := fun _ => rfl }

theorem ocspShape_lawful : ocspShape.Lawful :=
  Record.Lawful.shape_lawful {
    nodup := by decide
    required := List.nil_subset _
    fields := carries_of_cons uint64_lawful <| carries_of_cons optional_string_lawful .nil
    complete := fun _ => rfl }

theorem crlShape_lawful : crlShape.Lawful :=
  Record.Lawful.shape_lawful {
    nodup := by decide
    required := List.nil_subset _
    fields := carries_of_cons uint64_lawful <| carries_of_cons optional_string_lawful <|
      carries_of_cons optional_string_lawful <| carries_of_cons optional_string_lawful <|
      carries_of_cons optional_string_lawful <| carries_of_cons bool_lawful .nil
    complete := fun _ => rfl }

theorem methodShape_lawful : methodShape.Lawful :=
  word_lawful fun m => by cases m <;> rfl

theorem revocationShape_lawful : revocationShape.Lawful :=
  Record.Lawful.shape_lawful {
    nodup := by decide
    required := List.nil_subset _
    fields := carries_of_cons (list_lawful methodShape_lawful) <| carries_of_cons uint64_lawful <|
      carries_of_cons ocspShape_lawful <| carries_of_cons crlShape_lawful .nil
    complete := fun _ => rfl }

theorem verdictShape_lawful : verdictShape.Lawful :=
  choice_lawful fun v => by cases v <;> rfl

theorem actionShape_lawful : actionShape.Lawful :=
  choice_lawful fun a => by cases a <;> rfl

theorem conditionsShape_lawful : conditionsShape.Lawful :=
  Record.Lawful.shape_lawful {
    nodup := by decide
    required := List.nil_subset _
    fields := carries_of_cons optional_string_lawful <| carries_of_cons optional_string_lawful <|
      carries_of_cons optional_string_lawful <| carries_of_cons optional_string_lawful <|
      carries_of_cons optional_string_lawful <| carries_of_cons optional_string_lawful <|
      carries_of_cons optional_string_lawful .nil
    complete := fun _ => rfl }

theorem ruleShape_lawful : ruleShape.Lawful :=
  Record.Lawful.shape_lawful {
    nodup := by decide
    required := by decide
    fields := carries_of_cons string_lawful <| carries_of_cons conditionsShape_lawful <|
      carries_of_cons (list_lawful string_lawful) <|
      carries_of_cons (list_lawful actionShape_lawful) <|
      carries_of_cons verdictShape_lawful <| carries_of_cons int32_lawful .nil
    complete := fun _ => rfl }

theorem aclShape_lawful : aclShape.Lawful :=
  Record.Lawful.shape_lawful {
    nodup := by decide
    required := List.nil_subset _
    fields := carries_of_cons bool_lawful <| carries_of_cons verdictShape_lawful <|
      carries_of_cons (list_lawful ruleShape_lawful) .nil
    complete := fun _ => rfl }

theorem policyShape_lawful : policyShape.Lawful :=
  Record.Lawful.shape_lawful {
    nodup := by decide
    required := List.nil_subset _
    fields := carries_of_cons optional_string_lawful .nil
    complete := fun _ => rfl }

theorem generalShape_lawful : generalShape.Lawful :=
  Record.Lawful.shape_lawful {
    nodup := by decide
    required := List.nil_subset _
    fields := carries_of_cons bool_lawful .nil
    complete := fun _ => rfl }

theorem shape_lawful : shape.Lawful :=
  Record.Lawful.shape_lawful {
    nodup := by decide
    required := List.nil_subset _
    fields := carries_of_cons listenerShape_lawful <| carries_of_cons tlsShape_lawful <|
      carries_of_cons revocationShape_lawful <| carries_of_cons aclShape_lawful <|
      carries_of_cons policyShape_lawful <| carries_of_cons generalShape_lawful .nil
    complete := fun _ => rfl }

/-- All keys of a rule as they are written; a condition that is not set is null. -/
example : ruleShape.write
      { name := "r", conditions := { clientId := "c" }, topics := ["t/#"], actions := [.publish],
        verdict := .deny, priority := -1 } =
    record [("name", .string "r"),
      ("match", record [("username", .null), ("username-regex", .null), ("client-id", .string "c"),
        ("client-id-regex", .null), ("client-ip", .null), ("common-name", .null),
        ("common-name-regex", .null)]),
      ("topics", list [.string "t/#"]), ("actions", list [.string "publish"]),
      ("decision", .string "deny"), ("priority", .number (-1))] :=
  rfl

/-! ## Files -/

/-- Any text that is read as what was written will do. -/
theorem load_eq_ok_of_read {text : String} {s : Settings}
    (h : Json.read text = (shape.write s, none)) : load (Utf8.encode text) = .ok s := by
  rw [load, Utf8.decode_encode]
  simp only [Except.mapError, bind, Except.bind, h, shape_lawful.read_write]
  rfl

/-- Written to a file and loaded from it, settings stay the same. -/
theorem load_encode_render (s : Settings) :
    load (Utf8.encode (shape.write s).render) = .ok s :=
  load_eq_ok_of_read (shape_lawful.whole s).read_render

end MqttGateway.Settings
