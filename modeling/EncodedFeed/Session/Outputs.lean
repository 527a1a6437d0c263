import EncodedFeed.Session.Basic

/-!
# Outputs of a session

Presenting images to outputs, and who holds on to an output.
-/

namespace EncodedFeed.Session

/-- Offer an image to an output, and count it with the pipeline behind it if it is accepted. -/
def present (s : Session) (d : Destination) (i : EmittedImage) : Option SinkError × Session :=
  let refusal := (s.output? d.output).bind fun o => (o.offer i).1
  let s := (s.modifyOutput d.output fun o => (o.offer i).2).note (.presented d.output i refusal)
  match refusal, d.counter with
  | none, some p => (none, s.count p fun c => c.accept i.image)
  | _, _ => (refusal, s)

/-- The application lets go of an output. -/
def dropOutput (s : Session) (o : Ref .output) : Session :=
  { s with outputs := s.outputs.modify o.number fun slot => { slot with held := false } }

/-- The application or some encoder holds on to the output. -/
def isHeld (s : Session) (o : Ref .output) : Bool :=
  (s.outputs.get? o.number).any OutputSlot.held
    || s.encoders.toList.any fun e => e.destinations.any fun d => d.output == o

/-- The channel an output is. -/
def channel? (s : Session) (o : Ref .output) : Option Channel := (s.output? o).bind Output.channel?

/-- Change an output if it is a channel. -/
def modifyChannel (s : Session) (o : Ref .output) (f : Channel → Channel) : Session :=
  s.modifyOutput o fun x => match x with | .channel c => .channel (f c) | x => x

/-- Add a receiver to a channel. -/
def subscribe (s : Session) (o : Ref .output) : Nat × Session :=
  (((s.channel? o).map Channel.nextReceiver).getD 0, s.modifyChannel o fun c => c.subscribe.2)

/-- Remove a receiver from a channel. -/
def unsubscribe (s : Session) (o : Ref .output) (receiver : Nat) : Session :=
  s.modifyChannel o fun c => c.unsubscribe receiver

/-- What a receiver of a channel gets next. -/
def receive (s : Session) (o : Ref .output) (receiver : Nat) : Reception × Session :=
  (((s.channel? o).map fun c => (c.receive receiver).1).getD .nothing,
    s.modifyChannel o fun c => (c.receive receiver).2)

end EncodedFeed.Session
