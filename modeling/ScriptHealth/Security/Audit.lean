import ScriptHealth.Security.Finding
import ScriptHealth.Text.Lowercase

/-!
# Dependency audit

The audit tool answers with a decoded JSON value in one of two formats: a map of vulnerabilities by
package, or a collection of advisories. Entries of an unexpected kind are passed over.
-/

namespace ScriptHealth.Audit

/-- The category of audit findings. -/
def category : String := "Dependency Vulnerability"

/-- The severity of a value: one of the four names in any case of letters, and low otherwise. -/
def severityOf (v : Value) : Severity :=
  (Severity.ofName? (String.ofList (Text.lower v.text.toList))).getD .low

/-- The first of two values that counts as true, or the second. -/
def orElse (v w : Value) : Value := if v.isTruthy then v else w

/-- What caused a vulnerability, as text: titles or names of the causes, or the text of another
value. -/
def causes : Value → String
  | .list items =>
    ", ".intercalate (items.filterMap fun v =>
      match v with
      | .map _ => some (orElse (v.field "title") (orElse (v.field "name") (.str ""))).text
      | _ => none)
  | .null => ""
  | v => v.text

/-- A finding of the audit. -/
def finding (name : String) (severity description : Value) : Finding :=
  { name, severity := severityOf severity, description, source := .dependencyAudit, category }

/-- The finding of an entry in the map of vulnerabilities. -/
def ofVulnerability? (name : String) (v : Value) : Option Finding :=
  match v with
  | .map _ =>
    let range := (orElse (v.field "range") (.str "")).text
    let described := causes (v.field "via")
    some (finding (name ++ " (" ++ range ++ ")") (v.field "severity")
      (.str (if described.isEmpty then "Vulnerable version: " ++ range else described)))
  | _ => none

/-- The finding of an advisory. -/
def ofAdvisory? (v : Value) : Option Finding :=
  match v with
  | .map _ =>
    let title := orElse (v.field "title") (.str "")
    let moduleName := (v.get? "module_name").getD (.str "")
    some (finding (moduleName.text ++ " - " ++ title.text) (v.field "severity")
      (orElse (v.field "overview") title))
  | _ => none

/-- The findings in the answer of the audit tool. -/
def findings (payload : Value) : List Finding :=
  match payload with
  | .map _ =>
    match payload.field "vulnerabilities" with
    | .map entries => entries.filterMap fun e => ofVulnerability? e.1 e.2
    | _ =>
      match payload.field "advisories" with
      | .map entries => entries.filterMap fun e => ofAdvisory? e.2
      | .list items => items.filterMap ofAdvisory?
      | _ => []
  | _ => []

end ScriptHealth.Audit
