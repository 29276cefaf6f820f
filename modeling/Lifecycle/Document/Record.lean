import Lifecycle.Document.Basic
/-!
Documents and their parts as records, every field in its fixed place with what is held there. No value
is a record of its own accord: records are put together by a reader. -/

namespace Lifecycle

def Artifact.toValue (a : Artifact) : Value := .record .artifact [
  ("type", a.type.toValue),
  ("path", a.path.toValue),
  ("approved", a.approved.toValue),
  ("created_at", a.createdAt.toValue),
  ("metadata", a.metadata.toValue)]

instance : Plain Artifact where
  toValue := Artifact.toValue
  ofValue? _ := none
  toValue_of := nofun

def Task.toValue (t : Task) : Value := .record .task [
  ("id", t.id.toValue),
  ("name", t.name.toValue),
  ("phase", t.phase.toValue),
  ("status", t.status.toValue),
  ("created_at", t.createdAt.toValue),
  ("updated_at", t.updatedAt.toValue),
  ("started_at", t.startedAt.toValue),
  ("completed_at", t.completedAt.toValue),
  ("iteration", t.iteration.toValue),
  ("assigned_agent", t.assignedAgent.toValue),
  ("inputs", t.inputs.toValue),
  ("outputs", t.outputs.toValue),
  ("metadata", t.metadata.toValue)]

instance : Plain Task where
  toValue := Task.toValue
  ofValue? _ := none
  toValue_of := nofun

def Phase.toValue (p : Phase) : Value := .record .phase [
  ("status", p.status.toValue),
  ("enabled", p.enabled.toValue),
  ("created_at", p.createdAt.toValue),
  ("started_at", p.startedAt.toValue),
  ("completed_at", p.completedAt.toValue),
  ("failed_at", p.failedAt.toValue),
  ("iteration", p.iteration.toValue),
  ("inputs", p.inputs.toValue),
  ("outputs", p.outputs.toValue),
  ("tasks", p.tasks.toValue),
  ("metadata", p.metadata.toValue)]

instance : Plain Phase where
  toValue := Phase.toValue
  ofValue? _ := none
  toValue_of := nofun

def Statechart.toValue (s : Statechart) : Value := .record .statechart [
  ("current_state", s.current.toValue),
  ("updated_at", s.updatedAt.toValue)]

instance : Plain Statechart where
  toValue := Statechart.toValue
  ofValue? _ := none
  toValue_of := nofun

def Document.toValue (d : Document) : Value := .record .document [
  ("name", d.name.toValue),
  ("type", d.type.toValue),
  ("branch", d.branch.toValue),
  ("description", d.description.toValue),
  ("created_at", d.createdAt.toValue),
  ("updated_at", d.updatedAt.toValue),
  ("phases", d.phases.toValue),
  ("statechart", d.statechart.toValue),
  ("agent_sessions", d.agentSessions.toValue)]

instance : Plain Document where
  toValue := Document.toValue
  ofValue? _ := none
  toValue_of := nofun

end Lifecycle
