/-
# Networks

The networks that contracts are deployed on, each with the address of a server and the phrase that
signatures are bound to.  Names are read without regard to letter case, and two networks have a
second name.
-/

namespace ContractInterface

/-- A network. -/
structure Network where
  name : String
  rpcUrl : String
  passphrase : String
deriving DecidableEq, Repr

namespace Network

/-- The known networks. -/
def presets : List Network :=
  [⟨"testnet", "https://soroban-testnet.stellar.org", "Test SDF Network ; September 2015"⟩,
   ⟨"mainnet", "https://soroban.stellar.org", "Public Global Stellar Network ; September 2015"⟩,
   ⟨"futurenet", "https://rpc-futurenet.stellar.org", "Test SDF Future Network ; October 2022"⟩,
   ⟨"local", "http://localhost:8000/soroban/rpc", "Standalone Network ; February 2017"⟩]

/-- The second names. -/
def aliases : List (String × String) :=
  [("pubnet", "mainnet"), ("standalone", "local")]

/-- A name in small letters.  The names of the networks are ASCII, and no letter outside it has
one of theirs as its small form, so ASCII letters are all that matter. -/
def smallName (name : String) : String :=
  String.ofList (name.toList.map Char.toLower)

/-- The network of a given name. -/
def ofName? (name : String) : Option Network :=
  let small := smallName name
  let key := (aliases.lookup small).getD small
  presets.find? (·.name = key)

/-- A network that is none of the known ones. -/
def custom (rpcUrl passphrase : String) : Network :=
  ⟨"custom", rpcUrl, passphrase⟩

end Network

end ContractInterface
