import CardBattle.Ability

/-!
# Combat

An attack saps the attacker and is logged; then the abilities that listen for the damage run, and
last the damage is dealt. Attacked creatures strike back. Whether an attack is legal is checked
before, and not here.
-/

namespace CardBattle

namespace Session

def sapInstance (id : InstanceId) : Update Unit := fun s =>
  match s.instance? id with
  | none => .error (.unknownInstance id) s
  | some _ => .ok () (s.modifyInstance id CardInstance.sap)

/-- Deals combat damage to a permanent that is still in play, and sweeps. -/
def strike (s : Session) (ctx : Context) (striker : Seat) (name : String) (victim : InstanceId)
    (amount : Int) : Session :=
  if s.onBattlefield victim then
    let now := ctx.now s
    let entry : LogEntry :=
      { player := striker, action := .damage, amount := some amount
        target := s.targetOf? ctx.catalog victim
        description := name ++ " deals " ++ toString amount ++ " damage to "
          ++ s.cardName ctx.catalog victim
        timestamp := now }
    (s.record entry).settle ctx.catalog [.damageCard victim amount] now
  else s

end Session

namespace Play

open Session

def attackPlayer (ctx : Context) (attacker : InstanceId) (target : Seat) : Play Unit := do
  let d ← check (requireDefinition ctx.catalog attacker)
  let owner := (← check (requireInstance attacker)).owner
  let attackerTarget ← view (·.targetOf? ctx.catalog attacker)
  update (sapInstance attacker)
  let defender := (← check (requirePlayer target)).name
  change fun s => s.record
    { player := owner, action := .attack, amount := some d.attack, target := some (.player target)
      description := d.name ++ " attacks " ++ defender, timestamp := ctx.now s }
  let blow : DamageEvent := ⟨attackerTarget, some (.player target), d.attack⟩
  fire ctx .dealDamage ⟨owner, attacker, some blow⟩
  if ← view (·.isFinished) then return
  let now ← view ctx.now
  let dealt ← update (damagePlayer target d.attack now)
  change (·.record
    { player := owner, action := .damage, amount := some dealt, target := some (.player target)
      description := d.name ++ " deals " ++ toString dealt ++ " damage to " ++ defender
      timestamp := now })

def attackCard (ctx : Context) (attacker defender : InstanceId) : Play Unit := do
  let d ← check (requireDefinition ctx.catalog attacker)
  let e ← check (requireDefinition ctx.catalog defender)
  let owner := (← check (requireInstance attacker)).owner
  let defenderOwner := (← check (requireInstance defender)).owner
  let attackerTarget ← view (·.targetOf? ctx.catalog attacker)
  let defenderTarget ← view (·.targetOf? ctx.catalog defender)
  update (sapInstance attacker)
  change fun s => s.record
    { player := owner, action := .attack, amount := some d.attack, target := defenderTarget
      description := d.name ++ " attacks " ++ e.name, timestamp := ctx.now s }
  let blow : DamageEvent := ⟨attackerTarget, defenderTarget, d.attack⟩
  let riposte : DamageEvent := ⟨defenderTarget, attackerTarget, e.attack⟩
  fire ctx .dealDamage ⟨owner, attacker, some blow⟩
  if e.canCounter then fire ctx .dealDamage ⟨defenderOwner, defender, some riposte⟩
  fire ctx .takeDamage ⟨defenderOwner, defender, some blow⟩
  if e.canCounter then fire ctx .takeDamage ⟨owner, attacker, some riposte⟩
  if ← view (·.isFinished) then return
  change (·.strike ctx owner d.name defender d.attack)
  if e.canCounter then change (·.strike ctx defenderOwner e.name attacker e.attack)

end Play

end CardBattle
