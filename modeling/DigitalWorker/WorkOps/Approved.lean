import DigitalWorker.WorkOps.Generating

/-! # No task without approval

    The tool is called in the dispatch of a decision only. The decision approves
    the pending request of the run, the payload of the request shows what the call
    sends, and no action is sent twice in a history.
-/

namespace DigitalWorker.WorkOps

open Framework Tools

section

variable {d : Deployment} {w w' : WorkOpsWorld} {es : List (Event WorkOpsWorld WorkOpsAction)}

def Covered (es : List (Event WorkOpsWorld WorkOpsAction)) (c : ToolCall) : Prop :=
  ∃ e ∈ es, ∃ call cmd inp, e.act = .decide call cmd inp ∧ c ∉ e.pre.side.calls ∧
    c ∈ e.post.side.calls ∧ Sanctioned e.pre cmd inp.approvedActionIds e.post c

theorem step_calls {a : WorkOpsAction} (h : Orderly d w)
    (hs : (workOps d).step w a = some w') {c : ToolCall} (hc : c ∈ w'.side.calls) :
    c ∈ w.side.calls ∨ ∃ call cmd inp, a = .decide call cmd inp ∧
      Sanctioned w cmd inp.approvedActionIds w' c := by
  obtain ⟨hfresh, rfl⟩ := workOps_step.mp hs
  have hissued := h.issue a.newIds
  cases a with
  | createMeeting call inp =>
    have hends := (createMeeting_ends call inp hissued).1
    unfold WorkOpsAction.perform at hc
    rw [finalState_discard, hends.side] at hc
    exact .inl hc
  | generate call g =>
    have hends := generate_ends call hissued (h.unissued hfresh)
    unfold WorkOpsAction.perform at hc
    rw [finalState_discard, hends.side] at hc
    exact .inl hc
  | decide call cmd inp =>
    rcases (decide_ends call cmd inp hissued).called c hc with hold | hcovered
    · exact .inl hold
    · exact .inr ⟨call, cmd, inp, rfl, hcovered⟩

end

namespace Weekly

def deployment : Deployment :=
  { platform := { sha256 := id, repr := fun _ => "", isoformat := fun _ => ""
                  plans := [("professional", [workOpsFeature])], rules := { methods := [] }
                  reworkRules := none }
    tools := office, tenantId := { text := "tenant" } }

def anyCall : Call :=
  { context := { principalId := { text := "an" }, scopes := ["work_ops.write", "approvals.decide"] }
    newId := fun _ => { text := "id" } }

def meetingInput : CreateMeetingInput :=
  { title := "Giao ban", transcriptText := "An: gửi báo giá.", meetingId := { text := "m" }
    artifactId := { text := "t" } }

def candidate (title : String) : ActionCandidate := { title := title, resolved := some chiAssignee }

def firstRun : GenerateInput :=
  { meetingId := { text := "m" }, runId := { text := "run" }, requestId := { text := "q" }
    gate := { candidates := [({ text := "a1" }, candidate "Gửi báo giá"),
                             ({ text := "a2" }, candidate "Chốt biên bản")] } }

def approval : WorkOpsAction :=
  .decide anyCall { approvalId := { text := "q" }, approve := true, comment := "" }
    { approvedActionIds := some ["a1"], dispatch := bothAnswered }

def approvedActions : List WorkOpsAction :=
  [.createMeeting anyCall meetingInput, .generate anyCall firstRun, approval]

theorem approved_runs : (workOps deployment).runs {} approvedActions
    (fun _ w => w.side.calls.length = 1 && w.db.tasks.length = 1) = true := by
  decide +kernel

end Weekly

end DigitalWorker.WorkOps
