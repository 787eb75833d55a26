import KeyAudit.Text.Basic

/-!
# Channels

Lines come to the log through channels. An open channel hands its lines on to another
open channel that holds it, and this one is found by name: the name of the channel is cut
at its dots, from the last one on, until what comes before the dot is the name of an
open channel.

Between two dots at which a name is cut there has to be something, if only a third
dot. So a channel `a..x` may be held by a channel `a.` and not by `a`, but `a...x` by
`a..` and by `a`. What is held by a channel is therefore not always held by the one
that holds it, and a channel that is opened may come in between the two.
-/

namespace KeyAudit.Channel

/-- Whether lines come to the open channel `target` from one of which some of the name
    is left to be cut, last code point first. -/
def handsOn (opened : List Text) (target : Text) : Text → Bool
  | .char '.' :: last :: before =>
    let holder := (last :: before).reverse
    if !opened.contains holder then handsOn opened target before
    else holder = target || handsOn opened target (last :: before)
  | _ :: rest => handsOn opened target rest
  | [] => false

/-- Whether the lines of a channel come to the open channel `target`. -/
def leadsTo (opened : List Text) (target name : Text) : Bool :=
  name = target || handsOn opened target name.reverse

end KeyAudit.Channel
