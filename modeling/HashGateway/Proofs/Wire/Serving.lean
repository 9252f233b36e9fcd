import HashGateway.Proofs.Wire.Interruption

/-!
# Servers with a store in memory

A server that executes commands on a store in memory is, over the wire, this very store. What
is sent is read again as long as its texts and lists have fewer than `2 ^ 63` bytes and items,
which is how far their numbers go in the protocol. Only the words of a refused command are
different on both sides, and an operation does not tell them apart.

## Main definitions

* `Wire.served` — the store of a server
* `Command.IsSendable` — a command can be sent
* `Reply.IsReadable` — a reply is read as it was written

## Main results

* `Wire.command?_encodeCommand` — the server reads the command that was sent
* `Exchange.run_perform_serving` — an operation has the same outcome and effect over the wire
-/

namespace HashGateway

/-- A command can be sent: it has a name, and its numbers fit into the protocol. -/
structure Command.IsSendable (command : Command) : Prop where
  named : command ≠ []
  few : command.length < Numeral.half64
  short : ∀ part ∈ command, (Utf8.bytes part).length < Numeral.half64

/-- A reply is read as it was written. -/
def Reply.IsReadable (reply : Reply) : Prop := Wire.decode (Wire.encodeReply reply) = .ok reply

namespace Wire

/-- The engine behind a server that executes commands on a store in memory. -/
abbrev served : Engine Store := engine (Link.serving Engine.memory)

theorem encodeCommand_eq (command : Command) :
    encodeCommand command = encodeReply (.array (command.map .bulk)) := by
  have parts : command.flatMap (fun part => sized '$' (Utf8.bytes part)) =
      encodeReplies (command.map .bulk) := by
    induction command with
    | nil => rfl
    | cons part command ih =>
      rw [List.flatMap_cons, ih]
      rfl
  rw [encodeCommand, encodeReply, List.length_map, parts]

/-! ## Replies -/

section Readable

variable {parts : List String}

theorem isReadable_nil : Reply.IsReadable .nil :=
  decode_of_value? (show Written 0 .null _ from .null) (by decide) rfl

theorem isReadable_okay : Reply.IsReadable .okay :=
  decode_of_value? (show Written 0 (.simple ['O', 'K']) _ from .simple (by decide)) (by decide) rfl

theorem isReadable_int {n : Nat} (small : n < Numeral.half64) : Reply.IsReadable (.int n) := by
  have written : Written 0 (.integer n) (encodeReply (.int n)) := .integer (integer?_render small)
  exact decode_of_value? written (by decide) rfl

theorem isReadable_bulk {s : String} (short : (Utf8.bytes s).length < Numeral.half64) :
    Reply.IsReadable (.bulk s) :=
  decode_of_value? (show Written 0 _ _ from written_bulk short) (by decide) rfl

theorem isReadable_texts (few : parts.length < Numeral.half64)
    (short : ∀ part ∈ parts, (Utf8.bytes part).length < Numeral.half64) :
    Reply.IsReadable (.array (parts.map .bulk)) := by
  refine decode_of_value? (show Written 1 _ _ from written_texts few short) (by decide) ?_
  rw [Message.value?, Message.values?_texts]
  rfl

/-- A text before a list of texts, as in the reply to a scan. -/
theorem isReadable_scan {cursor : String}
    (cursor_short : (Utf8.bytes cursor).length < Numeral.half64)
    (few : parts.length < Numeral.half64)
    (short : ∀ part ∈ parts, (Utf8.bytes part).length < Numeral.half64) :
    Reply.IsReadable (.array [.bulk cursor, .array (parts.map .bulk)]) := by
  have items : WrittenAll 1 [.bulk (Utf8.bytes cursor), .array (Message.texts parts)]
      (encodeReplies [.bulk cursor, .array (parts.map .bulk)]) :=
    .cons (written_bulk cursor_short) (.cons (written_texts few short) .nil)
  have written : Written 2 (.array [.bulk (Utf8.bytes cursor), .array (Message.texts parts)])
      (encodeReply (.array [.bulk cursor, .array (parts.map .bulk)])) := by
    rw [encodeReply]
    exact .array (integer?_render (show 2 < Numeral.half64 by decide)) items
  refine decode_of_value? written (by decide) ?_
  simp only [Message.value?, Message.values?, Message.values?_texts]
  rfl

end Readable

/-! ## Commands -/

theorem mapM_text?_bulk (command : Command) :
    (command.map Reply.bulk).mapM Reply.text? = some command := by
  induction command with
  | nil => rfl
  | cons part command ih => simp [ih, Utf8.decode?_bytes, Reply.text?, Reply.bulk]

/-- The server reads the command that was sent. -/
theorem command?_encodeCommand {command : Command} (h : command.IsSendable) :
    command? (encodeCommand command) = some command := by
  have read : decode (encodeReply (.array (command.map .bulk))) =
      .ok (.array (command.map .bulk)) :=
    isReadable_texts h.few h.short
  simp only [command?, encodeCommand_eq, read, mapM_text?_bulk]

/-- A reply of the store comes back as it is. -/
theorem engine_serving_of_ok {store store' : Store} {command : Command} {reply : Reply}
    (sendable : command.IsSendable) (executed : store.execute command = (.ok reply, store'))
    (readable : reply.IsReadable) :
    served store command = (.ok reply, store') := by
  have read : decode (encodeReply reply) = .ok reply := readable
  simp only [served, engine_of_ne_nil sendable.named, Link.serving, command?_encodeCommand sendable,
    Engine.memory, executed, answer, read]

/-- A refused command comes back as one that is refused, in other words. -/
theorem engine_serving_of_error {store store' : Store} {command : Command} {e : Error}
    (sendable : command.IsSendable) (executed : store.execute command = (.error e, store')) :
    ∃ rejection, served store command = (.error (.command rejection), store') := by
  obtain ⟨rejection, refused⟩ := (conveys_answer _).refused ⟨Link.words e, rfl⟩
  refine ⟨rejection, ?_⟩
  simp only [served, engine_of_ne_nil sendable.named, Link.serving, command?_encodeCommand sendable,
    Engine.memory, executed, refused]

end Wire

/-- A store in memory refuses commands and has no other errors. -/
theorem Store.exists_rejection_of_execute {store store' : Store} {command : Command} {e : Error}
    (named : command ≠ []) (h : store.execute command = (.error e, store')) :
    ∃ rejection, e = .command rejection := by
  obtain ⟨name, arguments, rfl⟩ := List.exists_cons_of_ne_nil named
  unfold execute at h
  split at h
  · simp at h
  · next parsed =>
    obtain rfl := Except.error.inj (Prod.mk.inj h).1
    simp only [HashCommand.parse] at parsed
    split at parsed
    · simp at parsed
    · exact ⟨_, (Except.error.inj parsed).symm⟩

/-- An operation has the same outcome and the same effect over the wire. -/
theorem Exchange.run_perform_serving {operation : Operation} {arguments : List Argument}
    {command : Command} (formatted : Template.format operation.template arguments = .ok command)
    (sendable : command.IsSendable) {store : Store}
    (readable : ∀ reply, (store.execute command).1 = .ok reply → reply.IsReadable) :
    (perform operation arguments).run Wire.served store =
      (perform operation arguments).run Engine.memory store := by
  rw [perform_of_format formatted, run_send, run_send]
  cases executed : store.execute command with
  | mk answer store' =>
    rw [show Engine.memory store command = (answer, store') from executed]
    cases answer with
    | ok reply =>
      rw [Wire.engine_serving_of_ok sendable executed (readable reply (by rw [executed]))]
      rfl
    | error e =>
      -- Both engines refuse the command, if in other words, and a refusal is a failure.
      obtain ⟨rejection, rfl⟩ := Store.exists_rejection_of_execute sendable.named executed
      obtain ⟨rejection', refused⟩ := Wire.engine_serving_of_error sendable executed
      rw [refused]
      rfl

/-- The same of an operation whose command is known. -/
theorem Exchange.run_means_serving {operation : Operation} {arguments : List Argument}
    {command : Command} {meant : HashCommand}
    (formatted : Template.format operation.template arguments = .ok command)
    (means : operation.Means arguments meant) (sendable : command.IsSendable) {store : Store}
    (readable : (store.apply meant).1.IsReadable) :
    (perform operation arguments).run Wire.served store =
      (perform operation arguments).run Engine.memory store := by
  refine run_perform_serving formatted sendable fun reply executed => ?_
  obtain ⟨words, formatted', parsed⟩ := means
  obtain rfl := Except.ok.inj (formatted.symm.trans formatted')
  simp only [Store.execute, parsed] at executed
  rwa [← Except.ok.inj executed]

/-- Exchanges that are the same with two engines are the same one after the other. -/
theorem Exchange.run_andThen_congr {σ α β : Type} {engine engine' : Engine σ}
    {x : Exchange (Except Error α)} {f : α → Exchange (Except Error β)} {s : σ}
    (first : x.run engine s = x.run engine' s)
    (rest : ∀ a s', (f a).run engine s' = (f a).run engine' s') :
    (x.andThen f).run engine s = (x.andThen f).run engine' s := by
  rw [andThen, run_bind, run_bind, first]
  cases (x.run engine' s).1 with
  | ok a => exact rest a _
  | error e => rfl

end HashGateway
