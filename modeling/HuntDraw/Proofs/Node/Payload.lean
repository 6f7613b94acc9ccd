import HuntDraw.Node.Payload
import HuntDraw.Proofs.Data.Canonical

/-! Payloads as states. A state is read as the payload that its fields tell, and a payload is read back as it was
written. -/

namespace HuntDraw

open Attempt
open Json (Plain)

theorem NodeData.plain_toJson (d : NodeData) : d.toJson.Plain := by
  have hmime : (Json.object [("type", .text d.mime.type.text), ("domain", .text d.mime.domain.text),
      ("domain_model", .text d.mime.model)]).Plain :=
    .of_names ["type", "domain", "domain_model"] rfl (by decide) (by simp [Plain.text])
  exact .of_names ["uri", "mime"] rfl (by decide) (by simp [Plain.text, hmime])

namespace Payload

theorem field_eq_ok {v w : Json} {key : String} (h : v.get? key = some w) : field v key = .ok w := by
  cases v with
  | object fields =>
    rw [Json.get?] at h
    rw [field, h]
  | _ => cases h

theorem readData_toJson (d : NodeData) : readData d.toJson = .ok d := by
  obtain ⟨uri, type, domain, model⟩ := d
  cases type <;> cases domain <;> rfl

theorem readTable_eq_ok {v : Json} {key : String} {t : NodeTable} (h : v.get? key = some (tableJson t)) :
    readTable v key = .ok t := by
  rw [readTable, h]
  refine mapM_map_eq_ok (fun e => ?_) t
  change (do return (e.1, ← (e.2.map NodeData.toJson).mapM readData)) = Except.ok e
  rw [mapM_map_eq_ok readData_toJson]
  rfl

theorem read_eq_ok {v context : Json} {p : Payload} (hcontext : v.get? "context" = some context)
    (horganization : context.get? "organization_id" = some (.text p.organization))
    (hjob : context.get? "workflow_job_id" = some (.text p.job))
    (hnode : context.get? "node_id" = some (.text p.node))
    (hprevious : context.get? "previous_node_id" = p.previous.map .text)
    (hoverrides : v.get? "node_override_data" = some (tableJson p.overrides))
    (hresults : v.get? "node_result_data" = some (tableJson p.results)) : read v = .ok p := by
  have hbefore : previousOf context = p.previous := by
    rw [previousOf, hprevious]
    cases p.previous <;> rfl
  simp only [read, bind, Except.bind, field_eq_ok hcontext, field_eq_ok horganization, field_eq_ok hjob,
    field_eq_ok hnode, readTable_eq_ok hoverrides, readTable_eq_ok hresults, hbefore]
  rfl

end Payload
end HuntDraw
