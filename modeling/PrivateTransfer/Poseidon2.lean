import PrivateTransfer.Circuit

/-!
`std::hash::poseidon2_permutation` of the Noir standard library over BN254: the
Poseidon2 permutation of width four with four full rounds, 56 partial rounds and
four full rounds. Round constants come from the Grain generator of its parameter
set (prime field, 254 bits, width 4, 8 full and 56 partial rounds). The theorems
of this development hold for every permutation; this one is where they are run.
The repository's own reference values pin it at the end.
-/

namespace PrivateTransfer.Poseidon2

abbrev State := Vector Field 4

def firstConstants : List State :=
  [#v[0x19b849f69450b06848da1d39bd5e4a4302bb86744edc26238b0878e269ed23e5,
     0x265ddfe127dd51bd7239347b758f0a1320eb2cc7450acc1dad47f80c8dcf34d6,
     0x199750ec472f1809e0f66a545e1e51624108ac845015c2aa3dfc36bab497d8aa,
     0x157ff3fe65ac7208110f06a5f74302b14d743ea25067f0ffd032f787c7f1cdf8],
   #v[0x2e49c43c4569dd9c5fd35ac45fca33f10b15c590692f8beefe18f4896ac94902,
     0x0e35fb89981890520d4aef2b6d6506c3cb2f0b6973c24fa82731345ffa2d1f1e,
     0x251ad47cb15c4f1105f109ae5e944f1ba9d9e7806d667ffec6fe723002e0b996,
     0x13da07dc64d428369873e97160234641f8beb56fdd05e5f3563fa39d9c22df4e],
   #v[0x0c009b84e650e6d23dc00c7dccef7483a553939689d350cd46e7b89055fd4738,
     0x011f16b1c63a854f01992e3956f42d8b04eb650c6d535eb0203dec74befdca06,
     0x0ed69e5e383a688f209d9a561daa79612f3f78d0467ad45485df07093f367549,
     0x04dba94a7b0ce9e221acad41472b6bbe3aec507f5eb3d33f463672264c9f789b],
   #v[0x0a3f2637d840f3a16eb094271c9d237b6036757d4bb50bf7ce732ff1d4fa28e8,
     0x259a666f129eea198f8a1c502fdb38fa39b1f075569564b6e54a485d1182323f,
     0x28bf7459c9b2f4c6d8e7d06a4ee3a47f7745d4271038e5157a32fdf7ede0d6a1,
     0x0a1ca941f057037526ea200f489be8d4c37c85bbcce6a2aeec91bd6941432447]]

def partialConstants : List Field :=
  [0x0c6f8f958be0e93053d7fd4fc54512855535ed1539f051dcb43a26fd926361cf,
   0x123106a93cd17578d426e8128ac9d90aa9e8a00708e296e084dd57e69caaf811,
   0x26e1ba52ad9285d97dd3ab52f8e840085e8fa83ff1e8f1877b074867cd2dee75,
   0x1cb55cad7bd133de18a64c5c47b9c97cbe4d8b7bf9e095864471537e6a4ae2c5,
   0x1dcd73e46acd8f8e0e2c7ce04bde7f6d2a53043d5060a41c7143f08e6e9055d0,
   0x011003e32f6d9c66f5852f05474a4def0cda294a0eb4e9b9b12b9bb4512e5574,
   0x2b1e809ac1d10ab29ad5f20d03a57dfebadfe5903f58bafed7c508dd2287ae8c,
   0x2539de1785b735999fb4dac35ee17ed0ef995d05ab2fc5faeaa69ae87bcec0a5,
   0x0c246c5a2ef8ee0126497f222b3e0a0ef4e1c3d41c86d46e43982cb11d77951d,
   0x192089c4974f68e95408148f7c0632edbb09e6a6ad1a1c2f3f0305f5d03b527b,
   0x1eae0ad8ab68b2f06a0ee36eeb0d0c058529097d91096b756d8fdc2fb5a60d85,
   0x179190e5d0e22179e46f8282872abc88db6e2fdc0dee99e69768bd98c5d06bfb,
   0x29bb9e2c9076732576e9a81c7ac4b83214528f7db00f31bf6cafe794a9b3cd1c,
   0x225d394e42207599403efd0c2464a90d52652645882aac35b10e590e6e691e08,
   0x064760623c25c8cf753d238055b444532be13557451c087de09efd454b23fd59,
   0x10ba3a0e01df92e87f301c4b716d8a394d67f4bf42a75c10922910a78f6b5b87,
   0x0e070bf53f8451b24f9c6e96b0c2a801cb511bc0c242eb9d361b77693f21471c,
   0x1b94cd61b051b04dd39755ff93821a73ccd6cb11d2491d8aa7f921014de252fb,
   0x1d7cb39bafb8c744e148787a2e70230f9d4e917d5713bb050487b5aa7d74070b,
   0x2ec93189bd1ab4f69117d0fe980c80ff8785c2961829f701bb74ac1f303b17db,
   0x2db366bfdd36d277a692bb825b86275beac404a19ae07a9082ea46bd83517926,
   0x062100eb485db06269655cf186a68532985275428450359adc99cec6960711b8,
   0x0761d33c66614aaa570e7f1e8244ca1120243f92fa59e4f900c567bf41f5a59b,
   0x20fc411a114d13992c2705aa034e3f315d78608a0f7de4ccf7a72e494855ad0d,
   0x25b5c004a4bdfcb5add9ec4e9ab219ba102c67e8b3effb5fc3a30f317250bc5a,
   0x23b1822d278ed632a494e58f6df6f5ed038b186d8474155ad87e7dff62b37f4b,
   0x22734b4c5c3f9493606c4ba9012499bf0f14d13bfcfcccaa16102a29cc2f69e0,
   0x26c0c8fe09eb30b7e27a74dc33492347e5bdff409aa3610254413d3fad795ce5,
   0x070dd0ccb6bd7bbae88eac03fa1fbb26196be3083a809829bbd626df348ccad9,
   0x12b6595bdb329b6fb043ba78bb28c3bec2c0a6de46d8c5ad6067c4ebfd4250da,
   0x248d97d7f76283d63bec30e7a5876c11c06fca9b275c671c5e33d95bb7e8d729,
   0x1a306d439d463b0816fc6fd64cc939318b45eb759ddde4aa106d15d9bd9baaaa,
   0x28a8f8372e3c38daced7c00421cb4621f4f1b54ddc27821b0d62d3d6ec7c56cf,
   0x0094975717f9a8a8bb35152f24d43294071ce320c829f388bc852183e1e2ce7e,
   0x04d5ee4c3aa78f7d80fde60d716480d3593f74d4f653ae83f4103246db2e8d65,
   0x2a6cf5e9aa03d4336349ad6fb8ed2269c7bef54b8822cc76d08495c12efde187,
   0x2304d31eaab960ba9274da43e19ddeb7f792180808fd6e43baae48d7efcba3f3,
   0x03fd9ac865a4b2a6d5e7009785817249bff08a7e0726fcb4e1c11d39d199f0b0,
   0x00b7258ded52bbda2248404d55ee5044798afc3a209193073f7954d4d63b0b64,
   0x159f81ada0771799ec38fca2d4bf65ebb13d3a74f3298db36272c5ca65e92d9a,
   0x1ef90e67437fbc8550237a75bc28e3bb9000130ea25f0c5471e144cf4264431f,
   0x1e65f838515e5ff0196b49aa41a2d2568df739bc176b08ec95a79ed82932e30d,
   0x2b1b045def3a166cec6ce768d079ba74b18c844e570e1f826575c1068c94c33f,
   0x0832e5753ceb0ff6402543b1109229c165dc2d73bef715e3f1c6e07c168bb173,
   0x02f614e9cedfb3dc6b762ae0a37d41bab1b841c2e8b6451bc5a8e3c390b6ad16,
   0x0e2427d38bd46a60dd640b8e362cad967370ebb777bedff40f6a0be27e7ed705,
   0x0493630b7c670b6deb7c84d414e7ce79049f0ec098c3c7c50768bbe29214a53a,
   0x22ead100e8e482674decdab17066c5a26bb1515355d5461a3dc06cc85327cea9,
   0x25b3e56e655b42cdaae2626ed2554d48583f1ae35626d04de5084e0b6d2a6f16,
   0x1e32752ada8836ef5837a6cde8ff13dbb599c336349e4c584b4fdc0a0cf6f9d0,
   0x2fa2a871c15a387cc50f68f6f3c3455b23c00995f05078f672a9864074d412e5,
   0x2f569b8a9a4424c9278e1db7311e889f54ccbf10661bab7fcd18e7c7a7d83505,
   0x044cb455110a8fdd531ade530234c518a7df93f7332ffd2144165374b246b43d,
   0x227808de93906d5d420246157f2e42b191fe8c90adfe118178ddc723a5319025,
   0x02fcca2934e046bc623adead873579865d03781ae090ad4a8579d2e7a6800355,
   0x0ef915f0ac120b876abccceb344a1d36bad3f3c5ab91a8ddcbec2e060d8befac]

def lastConstants : List State :=
  [#v[0x1797130f4b7a3e1777eb757bc6f287f6ab0fb85f6be63b09f3b16ef2b1405d38,
     0x0a76225dc04170ae3306c85abab59e608c7f497c20156d4d36c668555decc6e5,
     0x1fffb9ec1992d66ba1e77a7b93209af6f8fa76d48acb664796174b5326a31a5c,
     0x25721c4fc15a3f2853b57c338fa538d85f8fbba6c6b9c6090611889b797b9c5f],
   #v[0x0c817fd42d5f7a41215e3d07ba197216adb4c3790705da95eb63b982bfcaf75a,
     0x13abe3f5239915d39f7e13c2c24970b6df8cf86ce00a22002bc15866e52b5a96,
     0x2106feea546224ea12ef7f39987a46c85c1bc3dc29bdbd7a92cd60acb4d391ce,
     0x21ca859468a746b6aaa79474a37dab49f1ca5a28c748bc7157e1b3345bb0f959],
   #v[0x05ccd6255c1e6f0c5cf1f0df934194c62911d14d0321662a8f1a48999e34185b,
     0x0f0e34a64b70a626e464d846674c4c8816c4fb267fe44fe6ea28678cb09490a4,
     0x0558531a4e25470c6157794ca36d0e9647dbfcfe350d64838f5b1a8a2de0d4bf,
     0x09d3dca9173ed2faceea125157683d18924cadad3f655a60b72f5864961f1455],
   #v[0x0328cbd54e8c0913493f866ed03d218bf23f92d68aaec48617d4c722e5bd4335,
     0x2bf07216e2aff0a223a487b1a7094e07e79e7bcc9798c648ee3347dd5329d34b,
     0x1daf345a58006b736499c583cb76c316d6f78ed6a6dffc82111e11a63fe412df,
     0x176563472456aaa746b694c60e1823611ef39039b2edc7ff391e6f2293d2c404]]

def internalDiagonal : State :=
  #v[0x10dc6e9c006ea38b04b1e03b4bd9490c0d03f98929ca1d7fb56821fd19d3b6e7,
    0x0c28145b6a44df3e0149b3d0a30b3bb599df9756d4dd9b84a86b38cfb45a740b,
    0x00544b8338791518b2c7645a50392798b21f75bb60e3596170067d00141cac15,
    0x222c01175718386f2e2e82eb122789e352e105a3b8fa852613bc534433ee428b]

def sbox (x : Field) : Field :=
  let square := x * x
  square * square * x

def externalMatrix (s : State) : State :=
  let a : Field := s.get 0
  let b : Field := s.get 1
  let c : Field := s.get 2
  let d : Field := s.get 3
  #v[5 * a + 7 * b + c + 3 * d, 4 * a + 6 * b + c + d,
     a + 3 * b + 5 * c + 7 * d, a + b + 4 * c + 6 * d]

/-- The diagonal holds the matrix entries less one. -/
def internalMatrix (s : State) : State :=
  let sum : Field := s.get 0 + s.get 1 + s.get 2 + s.get 3
  #v[internalDiagonal.get 0 * s.get 0 + sum, internalDiagonal.get 1 * s.get 1 + sum,
     internalDiagonal.get 2 * s.get 2 + sum, internalDiagonal.get 3 * s.get 3 + sum]

def fullRound (s constants : State) : State :=
  externalMatrix #v[sbox (s.get 0 + constants.get 0), sbox (s.get 1 + constants.get 1),
    sbox (s.get 2 + constants.get 2), sbox (s.get 3 + constants.get 3)]

def partialRound (s : State) (constant : Field) : State :=
  internalMatrix #v[sbox (s.get 0 + constant), s.get 1, s.get 2, s.get 3]

def poseidon2Permutation (state : State) : State :=
  let opened := firstConstants.foldl fullRound (externalMatrix state)
  let mixed := partialConstants.foldl partialRound opened
  lastConstants.foldl fullRound mixed

/-- `h(0, 0)` as quoted in the merkle service's test. -/
example : Circuit.hash2 poseidon2Permutation 0 0 =
    0x18dfb8dc9b82229cff974efefc8df78b1ce96d9d844236b496785c698bc6732e := by decide +kernel

/-! `circuits/withdrawal/Prover.toml`: a deposit of one SOL alone in the tree. The
running values of its path are written out and checked hash by hash. -/
section ProverToml

/-- The roots of the empty trees of depth 1 to 20. -/
def emptyNodes : List Field :=
  [0x18dfb8dc9b82229cff974efefc8df78b1ce96d9d844236b496785c698bc6732e,
   0x2c0d184fc7a25c124a27a67b2c46220b039b1a5072c3b693a18ffee458f6425d,
   0x268b2b93ac5fe540e618a378b8a71b8f2407232744d71e501ce8699980b306e5,
   0x2d436f654e14cc4febcafdf4a753b149dd8c88a75df9e5d6707e83a853b5f791,
   0x0b66fdef5a7f00f6fb45d1498b4d7131218e69ccf0a2751b6a1fb1bcd982867d,
   0x1d542b476c671bb6f0d2ab2939335d7cbad03476f1e3bcba70973b1adfe88b91,
   0x0680c6388c5798caf80642a1e84316b8b2f7caa99da076f3057d2962a46c5358,
   0x03c53ce5296e3e895171f89aa09f84214e3fb0755fe7a423b87888e4b3d731b8,
   0x2dd4e2510b33275359bba6edf72e6bdacad259950b024b2cc19d63c3a5b761df,
   0x11cb221f69d954d521fb5393767e77fe4d14133757a706b318e62fa984f98157,
   0x039d78bac8f890788eefe39af15eee5825056648f99210054fd03c25213f4de7,
   0x0c55b828a83062a77d2b3e0a66bbb50cb6040990d9f368da8b24c0e82b692349,
   0x24c866ac88715851268d808487e20e6986084fc222d7188e2a8e0f5b9f8457ef,
   0x0f6a94e437b9dfb35cdedf41e2e154c3ae449b7c04c13add0996a7b53cde5400,
   0x22afe7696b87cb782742e2d3ecb0f749a9beefbbb2159d178b09000e55b22cab,
   0x121b01164d32e9ab841ba8f5602b0ec58b576e62552c96911d4d988d49468cdd,
   0x05f3810707b1336c953b7db191215dab2b5772f93025aa345b954b43135b627b,
   0x287515b2d5975c74e3fd85a20d68611a463ffe605a1c54d8140ab16d1b77f57b,
   0x276ff13fde3afa1adb26149ddc3aa67240d603b6a91da5e494c8e58706381a38,
   0x3039bcb20f03fd9c8650138ef2cfe643edeed152f9c20999f43aeed54d79e387]

def proverShown : Circuit.PublicInputs where
  root := 0x0729e4efbdfe157efc4a52f06ec0f8fd8433cf32c5b18e3a452bf6e57ce8c63f
  nullifierHash := 0x0be69a08f6223439e8fe6327b5b9f3d1188882d443ddc38f614b8a8df916eae0
  recipient := 0x075bcd15
  amount := 0x3b9aca00

def proverHidden : Circuit.PrivateInputs where
  nullifier := 0x3039
  secret := 0x010932
  merkleProof := ⟨((0 :: emptyNodes).take 20).toArray, by decide⟩
  isEven := Vector.replicate 20 true

def proverCommitment : Field := 0x0e50421eb8b127135c334b564df7cc3aae2fb1243cdd7afec82401f83a82b816

def proverValues : List Field :=
  [0x09f3ab4610b164d7e066ad7b42e8e3149fa3d6b1c49c3c87a9e84b8a45afbbc6,
   0x0f91fbcb7db14244dc831e97e360baf63541ad5a645b1497f33d62aac29766bd,
   0x14ef65eb4d4e70b59c502e2b7da8b15ad8f703a5190784805f67f9a1e8c3a4fc,
   0x02844dd254b113a28b4ce3402253c4276d92b9a0f63545a3722813bde898c918,
   0x08c1b04274651f9fdde8f127e6b67c0998818c4403afaf8f6c51d1bfcc92e5b9,
   0x0532f61bb7d40719d64461b3989853f0a6534cdd081c4df7ca48ef06ead8addb,
   0x1f2d5a00c5f050f9e5d8fbef2e91fedb7e1595bd71ec4aca62b390433b74c47d,
   0x17a6c4c617ffc2af4af5f7ab56bff1aa6c688aaf76d8097d189ee70e8cd368b9,
   0x0d1a9d6eab2675cbd29a5a522567498a9ea9f9978e27c1e90f398513888927e4,
   0x0d65537ca83b915852102edee1f972a3f9c42eaa2b519d4dd243579fc6de9518,
   0x1bc85eda19622d9433b2f4c38ef4bca5ec33578f098dee047ca80793dbaa5a32,
   0x153b83311b79a52c5ce862a73f6f7d7b163361ffdc3d39c9ca06cdc27acaf6ef,
   0x0af2b2e5dfc68bba5164041f372aaed83c03a95d423c08fe92b262a7ebe020c0,
   0x00dd5df6c56c3ff2d73e5d02d16185e189218f34de2e7ba1714204869df6b10d,
   0x202327586d6b740ccba5c9f4ff8f29a9737b1840200004a4a580ccce5ec1e3c2,
   0x0b9ac1aea899abce85a4fc5a848bfddd6027799081772a6149064fa1f1d4b1df,
   0x089b34008e6ef0d5a74e85cfd9c92d685f9fe140cc4053865d9e106d4133bac2,
   0x244f1c9f7c6181a9b6409799b9137d1009a7d4354e502fce73e6475b3f3a00c2,
   0x2388f0ce9825404ff1fdaddca5923409ddb979b8df9f3a2015d7ed20abf2c885,
   0x0729e4efbdfe157efc4a52f06ec0f8fd8433cf32c5b18e3a452bf6e57ce8c63f]

def leftPath : List (Field × Bool) := ((0 :: emptyNodes).take 20).map fun node => (node, true)

theorem empty_nodes :
    MerkleTree.doublesBy (Circuit.hash2 poseidon2Permutation) 0 emptyNodes = true := by
  decide +kernel

theorem prover_commitment :
    Circuit.hash3 poseidon2Permutation proverHidden.nullifier proverHidden.secret
      proverShown.amount = proverCommitment := by
  decide +kernel

theorem prover_values :
    MerkleTree.climbsBy (Circuit.hash2 poseidon2Permutation) proverCommitment leftPath
      proverValues = true := by
  decide +kernel

theorem prover_nullifier :
    Circuit.hash1 poseidon2Permutation proverHidden.nullifier = proverShown.nullifierHash := by
  decide +kernel

theorem left_path :
    (List.range 20).map (fun k =>
      (MerkleTree.emptyNode (Circuit.hash2 poseidon2Permutation) 0 k, true)) = leftPath := by
  have nodes := MerkleTree.doubles_by_nodes _ empty_nodes
  have front := congrArg (List.take 20) nodes
  rw [← List.map_take, List.take_range] at front
  rw [leftPath, ← front, List.map_map]
  rfl

theorem prover_accepted : Circuit.Accepts poseidon2Permutation proverShown proverHidden := by
  have steps : proverHidden.merkleProof.toList.zip proverHidden.isEven.toList = leftPath := by
    decide
  rw [Circuit.accepts_iff, Circuit.merkle_root_climb, prover_commitment, steps,
    MerkleTree.climbs_by_end _ prover_values]
  exact ⟨prover_nullifier, rfl⟩

end ProverToml

end PrivateTransfer.Poseidon2
