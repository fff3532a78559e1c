import Sceptre.Runtime.Agreement

namespace Sceptre

open Foundation

def Packet.content (p : Packet) : Metadata × Bytes × Context := (p.metadata, p.data, p.context)

variable [Platform] {limits : Limits} {maxStreams : Int} {σ : Runtime} {lanes : StreamId → Lane}

theorem Wired.iterated (wired : Wired limits maxStreams σ lanes) (tick : Tick) :
    ∃ more σ', Pipeline.iterate tick σ = (.ok more, σ') ∧
      σ'.interpreter = Interpreter.run (Pipeline.dequeued [tick]) σ.interpreter ∧
      Wired limits maxStreams σ' fun s => (trace s σ.interpreter (Pipeline.calls [tick])).foldl (Lane.step limits)
        (lanes s) := by
  obtain ⟨σ', drove, interpreter, -, wired'⟩ := wired.drive (Pipeline.calls [tick])
  obtain ⟨more, σ'', iterated⟩ := wired.iterate tick
  rw [← Pipeline.loop_eq_drive, Pipeline.loop, Method.bind_returns iterated] at drove
  have same : σ'' = σ' := by cases more <;> exact congrArg Prod.snd drove
  exact ⟨more, σ', same ▸ iterated, interpreter, wired'⟩

/-- What the packets of stream `s` say that the datagrams give, whenever they are handled. -/
def contentsOf (s : StreamId) (raws : List Bytes) (i : Interpreter) : List (Metadata × Bytes × Context) :=
  (packetsOf s i (raws.map fun raw => .datagram raw 0)).map Packet.content

theorem packetsOf_contents (s : StreamId) (i : Interpreter) (events : List Event) :
    (packetsOf s i events).map Packet.content = contentsOf s (datagrams events) i := by
  induction events generalizing i with
  | nil => rfl
  | cons event rest ih =>
    rw [packetsOf_cons, List.map_append, ih]
    cases event with
    | datagram raw arrival =>
      rw [show datagrams (.datagram raw arrival :: rest) = raw :: datagrams rest from rfl, contentsOf, contentsOf,
        List.map_cons, packetsOf_cons, List.map_append]
      congr 1
      simp only [Event.input?]
      cases Interpreter.output raw i with
      | none => rfl
      | some record =>
        rw [Option.bind_some, Option.bind_some]
        split
        · cases record with
          | context md ctx => cases ctx <;> rfl
          | data md body => cases i.contexts.get? s <;> rfl
        · rfl
    | poll readings => rfl
    | flushAll => rfl

omit [Platform] in
theorem datagrams_map (raws : List Bytes) (arrival : ℚ) :
    datagrams (raws.map fun raw => .datagram raw arrival) = raws := by
  induction raws with
  | nil => rfl
  | cons raw rest ih => rw [List.map_cons, datagrams, List.filterMap_cons, Event.raw?, ← datagrams, ih]

theorem contentsOf_append (s : StreamId) (first second : List Bytes) (i : Interpreter) :
    contentsOf s (first ++ second) i = contentsOf s first i ++ contentsOf s second (Interpreter.run first i) := by
  rw [contentsOf, List.map_append, packetsOf_append, datagrams_map, List.map_append]
  rfl

theorem contentsOf_records (s : StreamId) (raws : List Bytes) (i : Interpreter) :
    (contentsOf s raws i).map (fun c => (c.1, c.2.1)) = dataRecords s (Interpreter.outputs raws i) := by
  rw [contentsOf, List.map_map]
  have records := packetsOf_records s i (raws.map fun raw => .datagram raw 0)
  rwa [datagrams_map] at records

theorem traced_contents (s : StreamId) (i : Interpreter) (l : Lane) (events : List Event) :
    ((trace s i events).foldl (Lane.step limits) l).received.map Packet.content =
      l.received.map Packet.content ++ contentsOf s (datagrams events) i := by
  rw [steps_received, List.map_append, ← packetsOf_contents]
  rfl

end Sceptre
