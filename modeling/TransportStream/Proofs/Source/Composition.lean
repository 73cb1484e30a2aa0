import TransportStream.Proofs.Source.Gathering
import TransportStream.Proofs.Source.Steady

/-!
# Reading in parts

On a steady source, to read some bytes and then some more is to read them all at once
(`readUpTo_composes`).
-/
namespace TransportStream.Source

theorem readUpTo_again {s : Source} (hs : s.Steady) (a b : Nat) :
    ((s.readUpTo a).source.readUpTo b).result = .ok ((s.rest.drop a).take b) ∧
      Advanced s (min (a + b) s.rest.length) ((s.readUpTo a).source.readUpTo b).source := by
  have hfirst := advanced_gather hs a
  have hsecond := advanced_gather hfirst.steady b
  have hleft : (s.gather a).source.rest = s.rest.drop a :=
    hs.candid.rest_gather (by rw [gather_of_steady hs])
  constructor
  · rw [← hleft]
    exact readUpTo_of_steady hfirst.steady b
  · have hboth := hfirst.trans hsecond
    have hcount : min a s.rest.length + min b (s.gather a).source.rest.length =
        min (a + b) s.rest.length := by
      rw [hleft, List.length_drop]
      omega
    rw [hcount] at hboth
    exact hboth

/-- Two reads of a steady source, one after the other, bring what one read of both
lengths brings from the same place of the same data, and leave the source where
this one does. The answers of the two sources may cut the data in any two ways.
On a source of any kind each read asks for what is missing, none is made once
nothing is, and before that only an answer of no bytes or a lasting fault makes a
read the last one. -/
theorem readUpTo_composes :
    (∀ s s' : Source, s.Steady → s'.Steady → s'.data = s.data → s'.position = s.position →
      ∀ a b : Nat, ∃ first second : Bytes,
        (s.readUpTo a).result = .ok first ∧
        ((s.readUpTo a).source.readUpTo b).result = .ok second ∧
        (s'.readUpTo (a + b)).result = .ok (first ++ second) ∧
        first ++ second = s.rest.take (min (a + b) s.rest.length) ∧
        ((s.readUpTo a).source.readUpTo b).source.position =
          s.position + min (a + b) s.rest.length ∧
        (s'.readUpTo (a + b)).source.position = s.position + min (a + b) s.rest.length) ∧
    (∀ s : Source, (s.readUpTo 0).requests = []) ∧
    ∀ (s : Source) (wanted : Nat) (before after : List Request) (request : Request),
      (s.readUpTo wanted).requests = before ++ request :: after →
        (∃ answer, request = .read (s.position + (Request.taken before).length)
            (wanted - (Request.taken before).length) answer) ∧
          (Request.taken before).length < wanted ∧
          (after = [] ↔ request.Ends ∨
            (Request.taken (before ++ [request])).length = wanted) := by
  refine ⟨fun s s' hs hs' hdata hposition a b => ?_, fun s => ?_, ?_⟩
  · have hrest : s'.rest = s.rest := by rw [rest, rest, hdata, hposition]
    have hwhole := (advanced_gather hs' (a + b)).position
    obtain ⟨hsecond, hboth⟩ := readUpTo_again hs a b
    rw [hposition, hrest] at hwhole
    refine ⟨s.rest.take a, (s.rest.drop a).take b, readUpTo_of_steady hs a, hsecond, ?_, ?_,
      hboth.position, hwhole⟩
    · rw [← List.take_add, ← hrest]
      exact readUpTo_of_steady hs' (a + b)
    · exact List.take_add.symm.trans List.take_eq_take_min
  · rw [readUpTo, gather_zero]
    rfl
  · intro s wanted before after request h
    have hgathering := s.gathering_gather wanted
    rw [show (s.gather wanted).requests = before ++ request :: after from h] at hgathering
    exact hgathering.asks

/-- Five bytes, served one by one to begin with and with an interruption in between. -/
def trickling : Source where
  data := [1, 2, 3, 4, 5]
  answers := [.serve 1, .fail ⟨.interrupted, "again"⟩, .serve 1, .serve 9]

theorem readUpTo_composes_trickling :
    trickling.Steady ∧ ∃ first second : Bytes,
      (trickling.readUpTo 2).result = .ok first ∧
      ((trickling.readUpTo 2).source.readUpTo 4).result = .ok second ∧
      ((ofBytes [1, 2, 3, 4, 5]).readUpTo 6).result = .ok (first ++ second) ∧
      first ++ second = [1, 2, 3, 4, 5] ∧
      ((trickling.readUpTo 2).source.readUpTo 4).source.position = 5 := by
  have hs : trickling.Steady := ⟨by decide, by decide⟩
  obtain ⟨first, second, hfirst, hsecond, hwhole, hbytes, hposition, -⟩ :=
    readUpTo_composes.1 trickling (ofBytes [1, 2, 3, 4, 5]) hs (steady_ofBytes _) rfl rfl 2 4
  exact ⟨hs, first, second, hfirst, hsecond, hwhole, hbytes, hposition⟩

end TransportStream.Source
