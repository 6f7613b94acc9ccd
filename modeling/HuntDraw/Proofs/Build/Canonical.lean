import HuntDraw.Proofs.Build.Returns
import HuntDraw.Proofs.Data.Meaning

/-! Canonical text holds what a value says, and nothing else. So the definition that is read where a compilation was
stored says what was compiled, in whatever order the fields of this stand. -/

namespace HuntDraw

open HuntDraw.Action

namespace Builder

variable {T : Type} {b : Builder T} {c : BuildContext} {w w' : World T}

/-- What is loaded after a compilation says what was compiled, and every value that says the same is stored as it is. -/
theorem compile_meaning {result : CompileResult} (h : runIn w (b.compile c) = (.ok result, w')) :
    ∃ compiled bytes d, b.compilation c w = .ok compiled ∧ w'.blobs.read result.key = .ok (.bytes bytes) ∧
      runIn w' (loadDefinition c) = (.ok d, w') ∧ d.meaning = compiled.chain.toJson.meaning ∧
      ∀ a : Datum, a.Writable → a.meaning = compiled.chain.toJson.meaning → a.canonicalBytes = .ok bytes := by
  obtain ⟨i, compiled, bytes, digest, events, hfound, hdefines, -, rfl, rfl⟩ := compile_eq_ok h
  have hplain := compilation_plain hdefines.compilation
  have hread := World.read_defined w hdefines.key bytes events
  have hloaded := definition_of_defines hdefines (World.getInstance_defined_self hfound bytes events) rfl hread
  refine ⟨compiled, bytes, _, hdefines.compilation, hread, ?_, hplain.meaning_sortFields, fun a ha hsame => ?_⟩
  · rw [runIn_loadDefinition, hloaded]
  · rw [ha.canonicalBytes_eq, ← hdefines.canonical, ha.plain_toJson.canonicalBytes_eq_iff hplain, ha.meaning_toJson, hsame]

end Builder

namespace Datum

/-- Values have one canonical text exactly where they say the same, and what is read from it says this too. The
definition that is read after a compilation says what was compiled. -/
theorem canonicalBytes_tells (a b : Datum) (ha : a.Writable) (hb : b.Writable) :
    (a.canonicalBytes = b.canonicalBytes ↔ a.meaning = b.meaning) ∧
    (∃ bytes cs v, a.canonicalBytes = .ok bytes ∧ Text.decodeDocument bytes = .ok cs ∧ Json.read cs = .ok v ∧
      v.Plain ∧ v.meaning = a.meaning) ∧
    ∀ (T : Type) (builder : Builder T) (c : BuildContext) (w w' : World T) (result : CompileResult),
      runIn w (builder.compile c) = (.ok result, w') →
      ∃ compiled bytes d, builder.compilation c w = .ok compiled ∧ w'.blobs.read result.key = .ok (.bytes bytes) ∧
        runIn w' (Builder.loadDefinition c) = (.ok d, w') ∧ d.meaning = compiled.chain.toJson.meaning ∧
        (a.meaning = compiled.chain.toJson.meaning → a.canonicalBytes = .ok bytes) := by
  refine ⟨?_, ?_, fun T builder c w w' result h => ?_⟩
  · rw [ha.canonicalBytes_eq, hb.canonicalBytes_eq, ha.plain_toJson.canonicalBytes_eq_iff hb.plain_toJson,
      ha.meaning_toJson, hb.meaning_toJson]
  · obtain ⟨bytes, hbytes⟩ := ha.plain_toJson.canonicalBytes_total
    obtain ⟨cs, hcs, hread⟩ := ha.plain_toJson.read_canonicalBytes hbytes
    exact ⟨bytes, cs, _, ha.canonicalBytes_eq.trans hbytes, hcs, hread, ha.plain_toJson.sortFields,
      ha.plain_toJson.meaning_sortFields.trans ha.meaning_toJson⟩
  · obtain ⟨compiled, bytes, d, hcompiled, hstored, hloaded, hsays, hsame⟩ := Builder.compile_meaning h
    exact ⟨compiled, bytes, d, hcompiled, hstored, hloaded, hsays, hsame a ha⟩

/-- A mapping is written as one with its entries in the other order, and a tuple with a member in it as a list with the
text of this. What an instance of one node is compiled to is read back. -/
theorem canonicalBytes_tells_entries :
    let a : Datum := .mapping [(.text "b", .tuple [.int 1, .member "DrawSortDirection" "ASC" "ASC"]), (.text "a", .null)]
    let b : Datum := .mapping [(.text "a", .null), (.text "b", .list [.int 1, .text "ASC"])]
    a.Writable ∧ b.Writable ∧ a.canonicalBytes = b.canonicalBytes ∧
      (∃ bytes cs v, a.canonicalBytes = .ok bytes ∧ Text.decodeDocument bytes = .ok cs ∧ Json.read cs = .ok v ∧
        v.meaning = a.meaning) ∧
      ∃ (w w' : World Binary64) (compiled : Compilation) (d : Json),
        Builder.plain.compilation (sampleContext "I") w = .ok compiled ∧
        runIn w' (Builder.loadDefinition (sampleContext "I")) = (.ok d, w') ∧
        d.meaning = compiled.chain.toJson.meaning := by
  intro a b
  have ha : a.Writable := by
    refine @Writable.mapping _ ["b", "a"] rfl (by decide) (List.forall_mem_cons.2 ⟨.tuple ?_, List.forall_mem_singleton.2 .null⟩)
    exact List.forall_mem_cons.2 ⟨.int (by decide), List.forall_mem_singleton.2 (.member _ _ _)⟩
  have hb : b.Writable := by
    refine @Writable.mapping _ ["a", "b"] rfl (by decide) (List.forall_mem_cons.2 ⟨.null, List.forall_mem_singleton.2 (.list ?_)⟩)
    exact List.forall_mem_cons.2 ⟨.int (by decide), List.forall_mem_singleton.2 (.text _)⟩
  have hsame : a.meaning = b.meaning := by
    refine congrArg Meaning.object (funext fun k => ?_)
    by_cases hk : k = "b"
    · subst hk
      simp [meaningOf?, word?, meaning, meanings]
    · simp [meaningOf?, word?, Ne.symm hk]
  obtain ⟨hiff, ⟨bytes, cs, v, hbytes, hcs, hread, -, hsays⟩, hcompiles⟩ := canonicalBytes_tells a b ha hb
  refine ⟨ha, hb, hiff.2 hsame, ⟨bytes, cs, v, hbytes, hcs, hread, hsays⟩, ?_⟩
  have hids : (sampleContext "I").instanceId ≠ (sampleContext "J").instanceId := (by decide : "I" ≠ "J")
  obtain ⟨_, _, _, _, _, -, -, hcompile⟩ := Builder.compile_single (T := Binary64)
    (World.getInstance_pair (sampleContext "I") (sampleContext "J")) (World.listNodes_pair hids).1 rfl rfl rfl
    (by decide +kernel)
  obtain ⟨compiled, bytes, d, hcompiled, -, hloaded, hsays, -⟩ := hcompiles _ _ _ _ _ _ hcompile
  exact ⟨_, _, compiled, d, hcompiled, hloaded, hsays⟩

end Datum
end HuntDraw
