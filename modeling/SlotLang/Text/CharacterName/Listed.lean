import SlotLang.Text.Lexicon
import SlotLang.Text.Packed

/-!
# Listed names of characters

The names of Unicode version 15 that follow no rule, in packed form.
-/

namespace SlotLang.Text.CharacterName

def listed : Lexicon :=
  ⟨unpack 248620 "fJP&>;xa3e:|GzMy1|1Vh1|R~#s-ci?HLBwwggfl)/db>-G<jIwScmz4jrdQ56I|MS=o*CxNs9%3FmN#U'O@3@-Tr74AiGpIx+#4(3^y2KlIfb2H!36lu[y
!b|I'_JcNa-g<~DE^6DkbSB=vDMe?gD1DOKbz[u^w)%J<0-AA)PU:FEc'7TIOavP8tAeC~9PT`OxjgP[g:GuTJc,_BWn<g~/>mIphQ?L/3jPI8b/t5:NEes
b#dNl~[MPh,:0|BxEet?~(Np>GPQVf`E!pAfQHpuQCKdW&u+S!efDiyF#^HB-o5bYmb->oQ=jcXR(>4tl`Du0,JoP0l_]KOv*kb)E@uy_PX2rb%^YRZl,$[
ION^o|nyZ#H$[Fnz_^57#3.@EpI?5xY'@(JUBwb-Cxk2c1C=*zZnjz4aFIM|$sM5h7gzJXhdrB!sF$^Iz&eXnDxf=F%+m#FuzlTICbRI!e*dCV&VkYV-e4r
eUEHgn2U6h9l,un|o?1i93&aJ@;mlllSkY>yKSo1vzZ8EY$@t~0'VSJ%P3CbWeuS@88CNl<tj/Eso;E$R8tHvc@e+Ll>buYB+6xj^u815;Y[@QcX9-H>[p|
sqmilu4ykW/Lz9LO<$aA_:R5ZyG$2BjModl@xUVOiY2u~x2o6HK!o!B(O`GqhV0JLWDmL7Can;p)Y!p&@&Jx-vU@wE(^4Sy+`KZ-XTR4I][j>|,`hGE~YZ'
||g.>!P)m1sR+W!yBp>=$k)?~>(FQz&Ds=&z/_#8_MeTdflLT4dS[@vosZkg^MFC2#OnQMJrTmSd`gJnyeo=`TV&RTtt_m7I9!:um=^r'@D~fXVS@Fk0'O4
PR*TV0BtNde&mq(?b4MghmZo/N>5-G^RQhRszeS4x,'8V`_vB%i)D]Xg^rc+7_>/?~Xl['NBAO?U?8mqK$-AS`EO(qi/8O*%D<93x^FX4MblZAVY9#Sl*sK
HFC~yA_K/~v8iAqh9CuFMwj7#jTn`shg|6^3tsM)9~YxuL*nK766T8:nLP*l|.rY4?Q&*l6ocV[Z<>PfK>1VUVnauE-*!h-738ixed*n(GF-2eb,)G]e;zA
d=6/)%>orc+-9=i[+xDk7(^$pJiVkF.hl2e!8=K[3%<Nat4`6CLGZ_+l4=~QUCJy#RNMg4u,q|/jWl?jbwO`2J'zZ@1RT'l,Zbl)+onf>tbVz~!C(tJhI<#
)$55gTg1p&e2tf^Fke!k>5?:[zGdb??f1!@%YSf>upZv]?qlst;I%RC|D:izQs=hwZ6A;F_2*X#5GKY1hK+[+3Xc*]CbgP&B6<zWC=bLk3/Aua6^8g##^-6
jwm/cjq@xp90.w5RsbE'b6&Pa;b3$eBl.*Ky5Q?0KC$aZ%oe3nyb7MBN;zNBU>'c?*tWo[IC0/E;@!gbkN`i%1rXq1n7k0EAU9ka2rdh?=`,FJ*m^e1Z]*3
,`TO;U_V&ZZ%I19B@+W2<.-t$Z0keg[4=`f_2OG(bp6R<kA,nOIbDSsOHW0=]gD52PK,5V,YP(Iqe5]Sy0ZNj(`@~b2a|`e%]t,~tl#.%v>3pt:A!a7lvWD
*Xe7/~jxu>(l*DK+J%vubBZ9/7wd$?o8s8IeT(R,HW48;[P6-X&_ej`XrKCK!TAq&)p@!tC~b70f0~Ag9w*Z~DX2BjVN@oQt`a+K89mg;nJ@PWvVF1,hk>n
8blg<V:-Ida_Ic3)-GnEOl*9IK%TS%z]=j*-g$/#mBcR^Aw4FaDIO2J|t`6C!u1RB!.5n=S.;&$m1(:]8`LSWI(DEY50(iIIHXKu;9ZS|qi3|MoF[6>Pp+%
U$?/n+s&C]FcNZP&,oX&/J^0Q~X?V,#L,On^Og`'gn]IuHofkk!3QhKG=]dA#3H2!B!'&[WmAVom5jW4x*$@0(%P33XRQWz@jwt:$++R.rq^d#A9goE|A.=
5pYgdzQM,Ql^ZpQKSMQC$O2xHZ?tM05!lS6miGqK7-3H@GQRQx|cGl1O8Ie:>ReG_J`CP<'T3aFi>F1!MW.R]XGrVzqgY:RGNB?[A@6>:~;s_t`:#=JvI`E
@v)[P0>/4dlv%f,gFf+JCe6dn*,<QEJY|-zW;V(Hfyi3Ob!YgnDQ-9?*Mf9~-aVg2zko)V2%P-e&o]YiFv+]sg'pg3AQD=BEm]:2V661Vssxmu8mqNZZs[:
vTnG1$LRb+!Vg<9J7Um7#=K<yNcw11wT1Qfg%e,%i/G|l'$UsI_7.t|'Oy]0G*qDl#;^:O[Ih>q'rB99[M^w^T/UbFc_Q/G0(4U>0qF6jY*oeGIlJlp+n)n
HTU56Jd-m5~PKCa4;V11TbCbPcWJI-(Pfk']Iot._=Em)si%``,]cL=!1ce|E65qV8n&#7]Sj46)J]>Uzed:Zj9nxdklC'@+[hBR:-45&5@8qECyJpeA88*
oeztGK]xML=gL;fq-rJhflV2HyK.G/r?5/Et837PJpJ,;@?%s4uq/oEcb]zg2)tPU@zgyBx%eFGVp_>-D-I0x,F3;Kb6E:~G+q[H18jeLWv'c!up~/!`af,
k8jxR^y5Ahac&T0n>A&P]u[P7zjY^vi'R,oJukw4]^sZzN_<Xw+MxCMBz?-f5ry6xcq_[kq]Yo~9.;9!hR]g(;/NiRzT/i?;QMqk;q]G:<qeinTbu4XlLs]
K25/&F00ziA%.;l6Rq#?2NkM+9g4qZ__Z2rm]C@=@Ho.Qh(GSfi%f_':Q?_b3xcPTLQBoOnBrPAbbQ~tVhr>Qn6pUdT_.UJD$)?UR:]::vWLd[49?#/#xz.
NCgB]xAA18pwz|GJ9Fo-;7IIp5nL70:9D2vK-a6@e9T4xdeLeSdC#?B$/xRzvjKMt5K-iN`hM9XLz~gy`!BcZ@*T]f/)=TD,Hca9Izr|478N~N[#k/Ns^vN
gBulDKwJf7U0P$(iuwHSX+yBOm>(KF1K!@R#FwX+B|PVj!_Ln/!I&bCHT)N)yBQWa?+Z+_N`H:C&@Ve_swkHx^YakVc>l0]gG+597B`[#?AbaJupu=RJ>)v
zEb.c@rBdKGGwyc/%UegMl2L_&oVp>aI!QY,z5@=ei:Uw=l(d0%;YSiZ,!*9BxG|c].g*|`MhULJ,^CbU<uZtY>PpLi+oQ*cW2.Flqedb2Fu15nttFFIoG3
SamOa&*.l(K6QcxQ+=WA02hO<0C`@A8sJZG?PyW@Ot^XfRl+3d2X_$?grstR/~%Db^)RI^eI>FX951T5&Y+/dQz[tS=J1^6-cerM[.!5,zZQd*3~>()B+ee
cno4!87D+'!%(_AfJgSTlr&Wg=:AOQj7niI]7'%h%V!L9_O7P|>D=u>9JS;_wBQo/^.nQmg1QnC3+-iw7ny:`GwLy%W0<-k5d`oO^(-M-(#KQk.9'*$LL3a
gZ5`LT#[jl=`XLPgSZcgDAA/HeZ$TTeRQmt'qxX7Z)=l[CBLrWdW78J_~W%0uECr|N5o.TH6`w`1$o;,ysl81tW;hGemM>'x,?M?2(l`,*(|YdVlWPJ(~mT
J^O$h~H:X3@1YVb;z=~w'<#61]$$lB1ZJEgvJ<)|eKteg;B)lOQ)#=8pctB+q6ig!Y`DAzdD~H.gQ:!g?%y`8UmDDZ0_^'6ehj<a)%kZ+tvpnj[VC79;5.G
D'O$nW5K/6KkE77Zg#aX(39l>Luftb`a?;DNKc`'9P6wz~a^tEN<6#BHwVb=jpd>bJG/:&w18:[@*]m@4VKr*7|Btgu5YNUkdrGh|GY/(N-?a~gEDzTV(Iq
Nue&F]PB'f<?t'c(h3AatC~mtdlczyM%4[n;dU#Z&nPBv:tz>7n0e/bnm|tzG8~s,cho6WSfN,6%>S'(U<kyz(eHi^tJMA.+BffCbM*/9XbmJf|uJnR[dU)
*L`^)u<p1EPnYb6+%=zk0'-c=~_e)b#ys8n'b(A<g*Rci8o?`m~d*lmry0;LEb>YcCvZvR-_wi]6t:wd:sT]1h,Fz_,bik_Gm]X4YjadOhI9.'$Oiq*PC,k
p#`S[3*5nlw^n_JR|CGS,K2+u[E1xqo4G#Ri%vZ4CZ7TD3TInvGP,B%;^Et'>vE^&C:JXy2WIH<WlH^758xpAa&EFSfsyJ51::m^0G^RA$)$m~IB@rOHQFI
2WE@MM!PJCZd|5Vibk^A_u$]4w6L*Iuo(rR~gl$0?axU+[8f@AIFLOBt9Cyn;5(n29L36#a5F6T2k&0$SQ/R.4#SwG<RM63]c:U(-tr[,wNQ*A|883K]:`:
v;|CW,L$rg'$&0BPFQQ[1h>%bnb^@^08V0[xM(yc>|[01hxYD79kdA7N$H`O]fvDzk!&6,e~cA%-N$%`bhL5hTLmCh-+tc^A1ip,DoUS$~$:[<Bx`$6s8*v
)rZ<5cn/(~%pXc!CEjv#[8(,z?i8CvdJ+3DKF>9gHRF2N~llMfl3]%:'mNfBFW57vx!9|g9GuY[h05><3nkn'.WQ:Ed$uA^Z4B(j$!_fI?Yz,Jo44y6c!+0
o9N5-$/,^cM6+T<%_o^QmENQP.vA&I(1$f9;eaLMMK$9ptb6F<7!x>7.C!Ywz4GIc<t7XfP7SB^($d=[<O0SiEKXk%F,?mIUXUFHugt>c|t)vALAY%6MNU;
A-*pViZA'.EG+t#A.^?nd(a[|I_KWXa&DgW<@tC'z^7XxkqPxXW4C/y$@MfSL#xr0kmzE||/|%NLF'cWI<+u@2Db'hhxt)vkJ&va,#Q))3P+DK#lwD2SQi-
?a1#:2x[Q1%Tj,OF4oUL$46![DHdG`tw5!UdU%~nwA0%bTT_xQk$]MinXh@73TFuD;n5J/Q%%Hm%XC70VEzlX&gub:HF)HR+kQW3qmNdCUw@3L75OidSN;%
(&z#X7,7V0IHW?6qOOwhW'nm]@Zym[C%v^:LKIylm_Du+D-[Fv2EBJk*@uQY1Phf`#dM^L34V]2X`KzO4G|Aq7_ZL=[/n8E&PDv'bD:4z:~Xy,8h9Rz[y#v
*nd|$VjXF5oM305MXkCb5:+2oga9Pao3/+L~RXv>?ZR2#;TrMhUCeT6@6HAy79!4xJiri&pk)Bkkf!5SHh2w<0xL(lLCex3%zOM)Ps!$'HqhtX@.CJ?B[3:
/OwV`.p-g*_9[sv9v?*v]a9xhv|KRFNSoWO>u=,W(h*Ft'M!M$:~b-l+M3fQBb(ySiy(gpWIxL*XJgpFlE&>gRhm/ziX2@7gK/3M^MFYs,Xn$aZG=r:D;0;
pP,HBItN%ZvL`5ZZP4X)^($irTq^V*-gm:go:RYl/-)l;eM>F!HptM*i^BCQmq38Kq(1OtWqMnR~rtrVzr3Qa^o^.a87`24y1S_.aQ<@ZvW|gIC3I'f73k]
Ela8vBOU)_`cPp=%M^]:B0$HQLHX$3)5b@=7>v#g_Ml?QK(+Ejas~m&!Ze3`39FnjTBCAS.|L@6ZgcL1ko]/egPb.0J)'Pxx9q+=ZO0'qzB_i>r`'nhEhK.
]A2JnO>^_(4Odq9UuIuoW'i|MH1Fn|ZMq;n#-*KpB.NbRom1g=N9lL]-];%+nz?:^wd:ETgA$LdQ79;>rtetRq`:(UoT3FOc'=95X,eU,dVD7IF4x9f3H<J
_Qfz/k7w:B$S?O$BL&pt;h%=$2#S'N+Be&05T0KLKW$)dDlwiqQH$3=>9u[+5x/2qEulRc?uX:8p$;~MAd6tO#U6jpBtC|V4H6ik_6'6u8a<v&Z(c@F0gVt
0GV;vu#MVgR*IS0SW%d;%b3q]2K!c9<0e'S=^CjL*2jHEzgu1kQqUZBaZufohEf&^&$G|fAGQ@MS=N=;|'&Tw)DFvhFZos20pIe8=;vqeLX*r4Fr*L'z8D'
Gv*08cOe5'b_Fhv=M3Hwf%9UY?6lV2)|CgGU8XK=wtPPUavq>bOd%EwD+`F]xPO5#L/2<giaDYN~X#fjRyYh^.9yF]FuCb+e<noY&bRwf%*>75U_ZaU?m'l
CWq>9Jb&CqSI4?04i+XhiiP5GA>4Qb2JhgUnb/@94vW9^U8a-c!us8q;emmhP^Mkvf,/ls/fAR;fcA%^oa-&Km%dM413x9x#~lxfW<xRXDXM8wu$pbZP$d]
6yXAq][3kGhZ&/hk@k5B'=zBIw_/7bB7-T9i~+YZ.=z:t+7;Y5;1J_PPTYAWKqz50O9lQ/);,BA|wNzpz?;Y+/wTE(B7Bos=sPcDN_`RncTeHC[~tD0+5Al
Owzon&M*z'P66zpt0-'?+T)f.3)9&T>OX#Aq;a1uJ7QXvZ1k=ojwu2Ab:Nzpo4m5sagC%=1ocY'N_s83sNGb8AR2cw8*>8!0~9S;:8]4MNwew(ZPcb'owOv
^*O+:sgephx#DE/cpOrh2XKPI[X~gJmZ(_sC5cuhdK:03sCJ+(,~gdRDL;H=3os*qgcI$XK*Ioz&u7)u[w:08W|zTn;rG`)NFF.QgtT<SIdp<TnIZZnOiD*
Kf`][QO)::8DX<(LPW`z]9^(<]JDh7&'Q.Y4KdV%l`/DkL?C*,he85pwELM9ofoFoW#>sBbI,v:Aezw)g>7gUzR)b`<S9Hp(Z4-'tlN9FP?Gg$7pJ:`];YU
H9jk8.;xhBM%vecC.gq!/PywCwXB_`Z5oeda%~H-NL%.H8+%mj2e]U5.!i^i.IB't`^VQMqxNt^K)=V~M&~.ZtsVu|Fti8]8.1+-_dyQ#lQKs9TqX16%R1%
n<P&;~?]iWr]1X_FG9m^?8/7s)MlU`Hmi#fdbIjGHNK|t7$&i]fscB?FoUi>,tu.1vr!+bOSN]w[@>Qg+yy7Sou2_rZv_3*HW|9l|]w/l-V_~T'h#@c~nQA
_Intc4Oj`WOHt+yd;1G<!.2W[M]B-P7HSwnJn%[W^;3YQZYvpjD[=f7*Vp^35Mx1P5Tf$RNE:iFNaVc,C895GXm*'(G*iBVQp&uQN^^z3;s]o+ZUxEY%rH1
,A).W~<71y?@?O3(Qhp-lL(Z3Ah%Hb(UQ8Ukv5`lL/*`~vCR,(W[/,pAU!~uY7[7#gHG(ZuJX0K:GIUh^+Vu_b?c;_9S^e1($LunxvjHe4M|.C+QnE174Xj
4g-U<VM??K-@yGl1-B4P>>q>*y3:ApocPq2+~#VNZSejjPlj'V#J|+Kk*PH!J8oeeVjEsod]ESuLR<b.Hxy(f:v_#r.AQD.zkr0V0*DH8H$mUIdD>&c!>Ex
JvxnU8OfAvr;O?jx:R)UmeRn7U|E10=oMx/LR|!--/-P/gBkdmz71He#)m%.J0X?%#<zdiQcZGq|wPsB:(o3g.7&xnn=V39y2>O&t(<s:;eU$|Mns>9vH]m
tp5L<eW2<hz0,;^C0M<-!NTpSV;<o&U;=@Q&Wgp]F`.S7IV=?Z`G)N^RhCGS/)U8w]S*PY@q/_70,a[dxd7Fe;49oc@DP8%Scfs$%nZPd&FYfTwW5g5wn~T
:,gqo>^>*lq0L8j0c9N<Y@T+ko9QHT-)l`'j&cO?0UErcApK:+yjBMlZ[v>Vh0xh|Xo|9-*HF$T73GZ#o_PKh0@[$~EBQNa~BOo]]CP`E_enxz9j(DlPiC9
0|6>=#60n+%*r!F[d1hQ2:8YNyX1l/n^C-j5shGgY3-PKLNS0o)[4DC-s.da`V`th`&)A=y<e1/*c?n_+(>XDTvxdQ><@3Z|X#NdwTP_xi($RBnA&/Qy>PG
N4R-!5m=c'~5W9@lQgA-rt,fIL+CWqF216Vi0I/TK@mw~iU4Q@t5p.Dxo2+g!%'_*yn4Aa`Tj-Y6~<j*2[GUap.f6`uKrheo$IZ-Xs`e7a~#0Cu.)eJOx1#
vO]T|_[,sl7)$t&|v-+^pc6f204(SoENjv-+o3xCPy*Mhn,E?ls0gIB5lC=Ic]zM_=SxI*wtuz!)Yn=6&5H0cbl#+kA8ff#@z7AP^92Ofvf`BNv,nOyH|Vu
'Pu'ku[@DvuBjtRn^3_wA]lw=>G.fxlk&?^@u+f]CiEs&X|WHyN%y@f(4bPrM[J%.EAD0gkq')K&.?[HA^8:jASjE;PN:taZA3T)^1$/$KwygVPc+SrAo,r
w>+A?e[^.A%aUW5vU`/rtU%+<Deg<clZ=cUgp8I1$iVo7*8wW*ZhPNZ!&]8W98??IiT1e'6PRcc]?#R/Pum(j8;/w>B-aC5AW4/OK|RGh:u*vX9WL+<fto$
KUcL+A825racd6!EJn>I7GS1Foq<D1]nRMY6:y7M-q.lW__xY/8dGMu@!`2>thP<y@TX$2^[bH|8Rg`8(]o8z5LR!2zfO(d1f@%%k@hM(@TGj5*&qDT!n0A
Avq`K6;qDPjOKybZ<I/P+.PvxqGZod8q/mJsNrvdex3)au&~1yvqkG+2U$wJ@vTYG(;MgOxoV.MasQ+JRQ+*Qj;1b4nqcfQa/)+7&&:Ou2FOYef#LA.,A>]
7Y=/Jd2:3!+G5Hc%JDJwG66%M|Ic+OoEoQp+rZQX&3/)!3yTnyiiQZ)4H*%<co<?C7-&.B0._uAt1MJdm|*p=FAwueOH!CW$I6XKLivbc(KPExl]8b|G:RX
BKJCp+d8GFZ`mA5dUjg5j#R8bOPQr,&LvB!+|F~db4l;KZ]MDg+&L<eHpBvp&$Lqlpn:^[:EdoL-2'p8;^&!M>>2QE-IP28JP9?5rqx@$CG<d2b4/@[P-S$
8ec,I/Ba07Vs<-]#R[1Y^A~gL3zHaK(nmXrZN5PP'n=t8SB3-kHOe4,/to9:0YrTYycWEKqu2yBC?SLBvbi[PlH_jV3!L(`_,GZ2S!o6],?-]RqOl9kb$l8
=fyO]zR1G0/u!lN5(Z#xhOeCiJ|z&Y<7&&^AJN)]*vC<j*^!wXa+^0gW%6_QL-`UX-sIAb~:feDJY84wyidk5ALEPyH3d`h0OKBVkYBlzkZc^eKt08$X<>k
eO6ICXpkmn|rubySXa<A70*6x!z[n1Ax1+~6(co6dxGI4AAMFe%xZ:03)M4M'/0Z%[]2nZA7@PYIQal-gAn0lvB)APU%Yt*rPXfyv>ZKQPFw[pW!aQF!&p_
G>zFexyg8c~(+=CCU5YiW?~V+QSdMf$Ow?s6)%B/JIG=9[ACS`9e?W58am.XVSF/0$.48_|,GY,`v05UMD5MH=QLrAFZ-fkVi(@]9r>P~)gqm,yW7g]#q+b
pLpNgL00Ha;?YoeWsKNzO]sZh?L?UHt##C;w-AuV#V80S(PI+n41FN[.J-(B<T`&ie/nGQ#1o,E^!eH%r-u=wIwaccJy):kC+A@_HFdrKX+2s*`)Z@nhm--
wc(Mq+I2L-y/e#cnGn[3gY6*-'lENwXd0Ejg^G>mE3V0?|VF`8p*1GjYPG`f^@5fmssY&ZN^'WH5,LK6`R2c%zccW&A]U#2t<A+w46bPPob3L|nm>^^=X<a
VFxO%5`lc/w|mpLK8mIeZMuAT$>Ht3|H^8tl'chD?<7N^,D!ajH-K2KWqVi0NbgI2=DnB,|V+,7>!)MeM'6m9,,7EgK,?A5??PuGXf^q#@Z>22R:_]Ov~lH
q$>dh|WUI<wIB<E5?j3%$O@*j!$I%pD%On%MHC^)Tl:5Ey('`U|DDQDf-WFa4fGyW,3*3(o2YD80HHG@~PBJ<D;jbldFGNh?nRxjm/.(<d_p-YM=Dknn6Xm
^p3?Pt-7B_QiH$6S)3id3Y7-l#('Q2:GP#+#!z?v(pl-:Me4&llpK./$y<XGTE^/nE_[&ekHQTrKDMC0/z+KirnjLnc`o4'k>PdP'4@*[h9+'|kl'CgTS8#
J@yY#S62j:M>y#)K[crX!wOdtW^n+8EBV5Pm(dLc.,EwC!lorYw:Cd6]^f,:KruLSn12Aanf#a1R|If7H'ejfxlWd]~;[k'YZWd=B[J/sI7b-,a=rc#,8td
'_TC*H=zRS:w0`1gh^Ry&VNTG??sw_W764HqP8)yjK4DHDC(!I-qqSkKae>4M+#4Hso*w(lTPr:,D!dFF_M/7LDo('A-l(YMuW&VR|gtoUN]lj[fTP%JzV#
a+jLQs:[!D^5iE<p/#jM5Zkfk_u2NbC7iZoM6+=IFTU^4JPzI|[;PM00E>-c4N.]e%4dSGojAN'xNbi=EjLKQAnP+$:`luKiJG-*&hD$XyzRFG*'dW)W6dU
_7QFV5bPUv[63#/jT@F$09R<x7k)s=IBEn=G`N'oH_1<`C_67$q['T=EG7$g-0_EJAJv.^TBQxjfE.>-``_0!=F%W1$j9+I*65V+F9_xWzWh!0o/OQEZg(p
_i]L13B=707^+`JfQa#q|t($R]piHoO'.G!?WWW9CCz2<ThMz[j<OYnC8)glFA>,Z.MD:bnf@m0%ZB?y~kF?VMswF!:b=;;|T,!Tv2V09:wR>yz^N#VF0wA
roMDo:s3#9Ds#M_dOrB]k_h'.clVKl^=xkO$)z6p<,E*ja];z&nhogIYW%v7Y+40!j7L(2#R<JeTl'&&;svcS~8gy(bq%!L6NXiZLz:=xK~/J[]cg>D0oGT
Lf//)_*D&ByB#$u/5%GS^L$/J]L3bB:='?xBP=>~g$$CLCV!WPPvn/J3QYD~Bl-?m@A+,rSyq(&;^dVB2R[P(+#$/llKH7Y_9/9,2$~#mo@7h%-*++zKy:X
5Ur=ov((cMRSw1'_tL8e]`1b:lJL%Pbh+=elUXhqaMOnQ;9i<!6%W,i!K5%;ZvoW&b5t8r<[L!f&<EcJq(|bXaS:AL<MMW0s_V91u^xql^2+mL=<nAb67'2
hk0->;YO2@@M''UEd#-TKgYv?-Nu3OfWpqj6#zH(!-si2[:YZIc()(.Qk,*Z#z&Up.<rt,j9vswFOQz*jed<|xc7%yQ$lbMGR|GErf]x]#SASbXp>i<a,r:
vlP%4a,7tgQ(GtuLA)GLuE2+~N9!v@~h$iQ4D5N[~.'/udb$/)h&,%CEy@K3IAuAkU#[8o[Fcn4e_HnedP?~)SNY+MxCw70~e9Q0,,u|IS0JCX!'5yroG@=
djg52nDTyxd/]o=lRZD2!*aO:+Z9|XZJ##f<k'p~B_iXw~5F=UIZ-mkMeKGryno>7(p5cAhB^EV=Oh3Eiag@sF$/u3l>iWgy4Yn8^:6lb0m`+b(eDm^A>/v
x`k_LzKG)5(VdYUG@GbsRAw7A0bHw3QXEZr`%RNS6yEDXXZ0~76;bj)27&O^FI4*a/s@Rmcv[yc#,$$P#='dq8E'b[cKP$krUu8l+LQaegHrU/%DW?[77n4
[:'2O4kN_JcbOp+v<hrcu#&^yDO028`PM.U-TOi!@xBjetc3','rh6RSa1]aJ<6i<P,P+XmBWGewqYv>RG%1sohF7fC|-I@juWD1Fgl?7tUd,3ya-k[pyO<
^~JUnGF[?B_&$DoX$i)H)=|>NoL><#;C)?*lK0%sKvdFRob^S3LX*N;rY*0^8Q13g#|9g`v~l?X=T2*M/N^J_/tkO~5_lcN5(Ppt*>[.-n*QN4FO~!h9%`=
sJ+i@af[CbJ^TqR#SM71GW.A`d8pHO]^A-K@Jwxj>k+>hZ!zX:K?,!Nk/PEMZ/r-c/~3:nKx=L853)!'FXL!)[Mf#0#8Cz+QQ56;t,#H!!CJvrAyNrs?UOC
uVY&=[kPQa-Z/z7oaD7:D?e&98>/,GJg*cGVQXin`zXgMnaDZUZ)_7RPE9[5$IiUyD9$<*f9<'y`$ar7s0D,[U-EPTyINXcp4JX'G#k10MAoAP7E;k*a9[!
W'XHq_&2rX#<kdB2RYTe;2iU0U6TY$5(<owfIOiA^mNaL@;`@F;9ioo7wQBYWK=:Nd-#CV~9gBK[6I<>t066w$,EeC9OG/gP@F=%Ygp5ZspJgu;Kk*d>YcP
8jSO:_Wd|l2#y5k5M]-'7:?*JXppv7;m-KYH(XQNmdJ9HnH+i%I[bgd*NEs)QI>?Wrr0BHz%Q9,$e2&V[v.?>/mo-mgij=R-3VP5<!>M)b%oOUk0OH06hEu
3YbWG^.Q<RWbi/~ya#g+f;Pa)cT9Af=UN7JbRo?3GczebgrWu'C3(i-i5bL$K`Y;sBs8KQPBd4R.4Svmm_X*Z4(;w9/60Zn5l$[urYl9eUTPoX3&2yLekHa
|RG]&Jb50TD/:V6zHuPg3y$lGFrR/e9xM!t--]9'ox%`z<`[$BM[R:-_~CH4b_|B=c'1eDKbI3V0=z`sog&m[b;^kfF=TyFGf'H&;4a>#VX?<:,zbpei/y|
T+ug<+Y$B]d&1v&d$.6ZiLx;8l@I6yV=IV1u+'^]itdoDvH*/o/X?&v2W-q8]h_(sgR1d1VyF*e9Vg'JHHHD<G>+/UVqc8E/'Wq0'%EB.gn!l'T<^V&uB_)
,d!gwUoCgO81hRT.-<Yb~CBVXc2`%A;qo8=ONA$i6/os_v>T*j1J>S:$wr~0j3L^5w4kM>-'zP@-A/)Y3$Sj?)m;cb$o%Bt-v$U(W,qY6~t[;!yRyX@46@5
u5g.wnp>l@[~4HNI(FTboS4E&TCj<Sg&y4IqB$7A_ox>3q'0zQ~]c/JO0+xDp@N/aeolld0_.Q6@Au(kb7$R?;=GEtlS+IHiqQ?#+T%vtu[G9wzYApz)B#4
v#`M]##$VPWia~fbs1P#8lj:@-mE|Xk0ZM-=|L':q)br6R3yR(@l/H]N#oS[~5sv?=:X5&<:ow>N`@HPU1o7%BUZZg=Kh?+i8gd28O?G*8781jW=I<zzhfK
qHRiNv[Qa/xDMEMrab.$--MewM`&[mGeQBk04Rx[GLXJ2X'/~~(6HjzjoV$XXv'm-(j_5Ni/rD9L:c$:e+y=,w.kL:rB5V6:RN+5ehJR<9FASZ@)rTrHAKb
kpnV>r>I@q7MX/ENFtdO&CxJL]ofO:Kg_Md..C9L$W>&_63lFMoc54.qHy~DrLi#ADEz!8/=`:Hpg3O9:M&k|]wB~DHmf6qmZNH$16d/nQP$8'QW';UbsVk
~aUTu(B%=J]APU19_&rgoNw@>ZIda(a#Q@siO>#a0L7qx:z0X`pd^NupbDZ`%D:`l^mlw3L%#H:x+P_n.I%`pu>!4A$zf:)z:WXqn>ki_-CnOEjQdK24fE2
+p3(/gf9vhB@3?>G>(;cVeh;B`AI_L<LOeeD~k1qxwG,9:#.v[;$rx,0s4me>ga91'*=vgPS/-IsUAoL:t#3[7&UqQrK'%OvG,M1zw&mRY`K|sn@;3yV/k>
BjMej*pa%P04<L4:5mz,Cg;fNdSpUWGb&!6.w@Ro!S+:)&RCHMMVBoajG40RuXJ~W~6wV5.+G~?I'v:%1=U7PN8pIBW2$BdVZTBe(J0*e0oD>`z.!.Z/)Kb
'tPPS_:ct%+7Q@]#;V(6s*(L[^K1~cHp-sm2fkLr>Hz[?Ec~#7HEbD3]ON@~vlRt#thWC;S--%]+)`BQB4J?n$dN(QRi6oinb?b%#>a!Hp;>M?jx[eMTja~
HESp4#^v15DhBOB+'a;nWDAAw7o$`M.Dm0>^C4*T&FWC1=SPP~Hj<xF,/wT4KnJUNDeHxkxMXW85~:qG,8G:-U.?F;l6y`*+Ja#ZNme[H(K7ek*<'vMD?K1
$MEjjIcUk]A&9XC$JmZJX0f<)utO~U0gUVSKI)n)A3alC:ln4]8mXKF.PW'q]Ux[T_w[HJD~o~YVy7_~P5USs<Z`fVv//hD)IRrGzy;p4hrH2PFb-7PU['l
(!3Ad*KlqTR$Pi`U[)i0c2C~cVKi6oe9yFj9NGmvu,mOxh!|ER5&*%!&iNN^iPNkl%9+bA,FQr>*vxieLH:!kkC]z>Wk]=Myt~#koR-|<PJM;0)GE[bm*L3
Sa^CB99ur2R+ER#b.z~nHb6Wa6(+m3ikqf7.=Hb0u=Xq(|p1PmO->f25kxY^.x&.'~Ztr7s9B$wAHY9rEnT5?mRjd%;^lR&|8J1;3JLQ/ZuG.WqiJ:+c]z|
O5@WT`%I&B$H)&-al1`T,>[n~%t::o:;rV;LDX?,8y,s*9ABg?w1CpvZ07dbQY?mYnjRroQ&g<m>K)@M_=AhmoN/,lm5sKWU%n:'pkindl(PfYn-/$y(Kr$
Ad!?.9+AruYsex[?xB5a1_d9RpV$?FcE-.P[S'+U1Kgh85A/*hbgwi?wJuw(-!'v<n[*1sg[_<pIlU2<TrWT'Rj;eR$x*7n&r9Uq~ykiu8K81y.rt#Il(i&
*MD1Yeu`q-I67Sv<TB,Rt$>c8f*Z/coK+(iWP/a',&c66_#C|*y^OzZUR/bMzU=KhH)3o&GnxqWE!HnQ?`E.-t6GP!3^q]D~32,d`il!)vDU9Imc@[K,?2@
K:*&3jC9M7G.|UK5wf7nJvzCBs``#IM6VE/L0ItTpP85g`YOM*fpkLiK,W[op/1MMj]Z~>l.)qMdXIo:wwYBjM1/T0-Tl-^KiC>[0YE/Xh)Ya,0lyNtP~TI
Y7-e4=DH|GO^8h0^D]qZfHee0lAr=&]|g5yF&WVzp^sit:NMWgbc>uvoD)rFX:Ef`GGS_O`;IN`+mb|^NNi=E&Vn8L7,b;V|')nj.p5jaHKt,.VBWnwQj|A
!Z0`p~4M2~Y~8OsXgyK_;!i1JH?^|4lZYl$eHnY5+piX^9jN+=0>]|p]440auWj]U1`d'#&ef4p$hgM,'6q0XD~qjema5NeW`|K]I_Vg;PkX/?j6t)Iro`5
MRm#r'SY*Dj*OD<Oxd<A6W@cm+TZeqMgynR9p^|WY(KqK6uG&vqQ42Q240ZUbu##xF!KH)Ph^jbT#y$Tl<iug:>UA]!;obqF6wzAGRTq^4[Yt6^xK:fp%Lh
7D$2xXTJ?M9=asYxo%wD4>@d0X;s,=P3,7nL6EN#z7CF6@PA59l5oKgckfs%!ttsdT;4`pMBcxMmR>gtF*!v`NB:W;()6EXk,%8!A%/Ceo58tBRY2e<$qDt
iDLrW,dMqXwr.Cu@>n^0_Ua+<C@6JXKWT`q6yOSxlu;=+vKU]GjL[we]j~PVF'VWhB,mW@OSi!fQFFrIm[~6Snvw76degSYk]1Qvfqe00i&9%9km$f-Hd&2
H!3j2UTAC1zQ+A,^AJDq4xCXmcx%UHmYf1|At.*T]bR#G>5H9S^+j[u6@/h$F<sQ>MsZ6IEGV10Oa&tA#nUld:E[R8f//U^srKRxDOru|G%#iZcyEu5$k^v
B<E4?yRy7zHDj![=(@V:OTxSj#v+i;l`6d8hN8U[/[|Xw$]ij+-3i(4KnNb4SPrcF7hQUmer3tuH&05iQ:IYN5,&|490!)k@p_t`c^rt@ii5maG?>ciQ$Lj
!tSAFAJp<zsn!O]TpKAKjrr4N^C'n3.fnD*Y!tP?8|o!4,3>T<l!Ov~HTJH'8TM;H~e3!_n*IGf|SsP|rVx*lhnO>X[ze~H5[$,$-6nBJ9);X!f(m;cX2j_
1%@o_RgReK-,<wcI#KLr##'9;DpqrU/Nq=3.dbT.KoNd'yr!gJ1ymcvJ:Ua%_)R<8XkYxn]CC7Ndt&yxD91FTv8fwZNd|1c8goDfaiZf4>4=vCcKm6|D&~f
A/j+Q<TWgWUAk46_re<Wso9B9gbD<`ap1h+p0S]MG+2gtiJ~VtS5UrmNDz9mnp,bXh#C7r=xLVUlSk-%%87((N3>R4Dn!Hu6t(J[cNm$CNJ)%[!]&|lbVb2
4MXjzMN7z~im:up6qr5k$84HZwp%R195c75$+S%6~S-~Yh2uNSBFIk`L[:Kp7P:~9uMD.B6Uud4rB1%hClNc??h8iL*Wp-U`XC|aX|d/ej,bsL5L>qd']IQ
nV<=cc<_SmJzik_$Ns''m/'|hzulE>o.tHX_a<cviec!&go1qDe^Hf>[N/A]<)B]38)p9$4(d#x#~'O(8)2s#~bfjkrKCc7S2HL4%3-`,N6VHWuH^[bWiDd
^uZDfj2;NB<pR.O*NI%,C7mAZv7hM[xYS>zJa1S:N3z_0q$yf`O>h'[.2^Rv!VeC=D3oFr3#&f8g9Z|=[eF,:o.54)pOB1&R'!)tF!E>S)jDs~.p_(Gm*Kc
ew3:;M-O>hYV6Uwt]h>Fz'~[mCUjH82u]ycwGitoUDKV]-TxyZ7QDS~;Fc;MruH,FQjNT`YdFf-D%74(.S_~~n!f7^u4V1/OAGZM/yL|Z99xeZ8i_^1/>69
ZoKa<&)j%nOlDwdcK3~xeMO>|gUXT~H!@J^Smnjj01dS%]J+3qq<_=]ZK8=hz<I#V;dmWQMX|ZVr(;sB-F%H=,1VQ%Z>(Ta0):3Q%T21gWU+QKGL3I;N_l:
HEDmn8/Y=`T/IrHw01JlH&I;n=OuY.Mu&C$8_$=]Y,EiHU6CKmWI3S60mHglw9drWgLo~Kg(iki$2d4hnc;M+EKsgSqL@Hkg<XfYc2,h#~;e=RttD,JWZT~
x?>;xq8]qCl<5p)##eA8@Hh1^:;t!c)pZYn*2bs.ws?be+VgJ7:.*yPk[yG$byg#wFiK]*i@&9j9Q?]|Pp:Fli+ISWxlTcnfj:*OqB2^f%Wch0FQi:YN6V%
6BW4<|[EM5]ffGo%xp7F#d~X;O|]F+UVy]d4?'BB1E0Mv<fKHmAbUkaqX=%YPBP3Vsau'Vld5o)1x6EK3jXglb5^U:ok:'x(qFkC8KH!,s<510AnE-0]>7x
E7cI@Ly=cSdkZ=b*V&TWujjiPGs`DP|^p5bP:*WP]3>OlzU_|'A.QsgNyS)><VJRfPI4Vy597.h$o*KoJ%u!-;qk?G~y/m,M`vhZM=5+|;:xsE^x~@<n(7k
!)(T9J<_u,hKLNEc_-E#Z$xXwahx,iVr:j,fx`8j;~16yK0]xo:(QT;]QGB'(|*<+L,[?jQ@(Kq$$l-)(*iD:AQ;xw(Rn'M4|<&yJ6OZ]Of!coD.eSc&KHu
)FcOMd6'&QD4:&'c22($mEprDOV)w,l)@UY<ZTZxtRRi0MyRVj~6iCC%oS/EfP!$]4r5OS6]=7Pq(mrk*^jtr.VWWD9A<K~c/thQo|Xt@zyQ_OpYk@^/^)A
=~GRX8AeGsN|p1.6L<)IUv6D|HD0Ji`*i@'DgW0Bx!|^HHSIM]G-EQb~>ijOWCV[h8nyW7k<_*)6(hl!7IF6S-Zw]@37b7!J3m4&d4<Pb*%6x@T%]tksfw/
b#yh1Iq1z1>;VON)dj&X)PzpwK_21Wmp:4HHTr%^)kd6'##8<jw,;hkpeH&!@1K1>]_FH?r5.~t*ZiZ/(&H.2=!66A7|M<cA@gM(J/.E9,EOd%,d%V5Je+#
&HRY%wctDO,lz4y'C*9,!(@2Ec1x*vU!>2v(B,(&L67g^`X3bm9%33;r5**!3Z3Zfxc:6wFG)ja:t)n3?8*&8;0:&_kG5ln|.887h7<L<E'*uG,#rJF6bep
Jcy)?$|&4?5nZ|>sGB`9KBwCrfh;O*8Lzl_>cIx1JC^9Txfd0Y+$@@]AsB8d_zHRx/kYlA'u~R^j%mb7uu~%I[kIK8'F[+CL~fz-pW6TDBnY>P!<.;q5k3|
uBzCjT0M:ml,vmU]Lj'hd=NY!.Er;+4FZEy(nPg>_)><PpoL8>zgn'Ims04-xyTRMsn@b_8X['dL~lBCs:ga%X&OWTPhqYKfbZVa1+Zdv-y<V$>dE]s[D6;
w|zo20%xOqCt1FHfc8nfAeBxBab3uKGc(CmU<!>#vsAalc7j;e^/>X|hpa>bS?v&&'juR@x|wXL|F%X]2L%]E3:+|RP&:/eVKtc$/U5;A!l02`][8;I9`5r
|=ND6<Bzd1.nhNy&dj!~C$h0bQ/Mjjd:JXP4Q,GpFV#_nd0Rpz9vTZad_iS>;$A_=tV|(k0!IBSiE1L;NLTi2>C?7qz@did+Yh9`#tb%8a<!ayal7wD]6n1
KTFT~vP!:4?ORC5$Ilm11K~[CD@[RFG5*E|OQ,z,Vz9]ycTHkl&Ezt8uUS)$J%yCZCzr@aUD+U)ITG%)K>L#M[(Em-ry#/B(Z+.3y15n5!rq69:NPuzn-it
Z^!vYPpqA-[nL4CrdHc-7~P64-JlZIx3&BJZpRWK?'m;fUQaL/,O!QI6J5Ib?bM.q]i*=/9w;J,vr9uKa!%L:Kj|_1].jCtUww|!=H,S&Dh.MMhG8kWFfmu
5:j6WuSHWL'-cmg-T;8EUFJVByZR#WQ$$DVYOxCN0c=]:@pmw5m4rI1zgZuXvkDS-Cr#_5xqkjh4::58CO[A[A?FK_`~X>qz'S@6#uOui/h[,NJ@v7IJ,`A
_c,14Ph/R/C/VX/CgX2`$~UCO(N[NR#&mSQuwxMbzjF,Z:T1GV%Jb%@&8uNr8_RSepY$$K/&*%MIZNdk+&gQ:h]D<v#i@/0cx<hh~b^PxT]z`S>-ux5/c_k
v3b6td@n=ho1o2/CAoo+[%ne8eKB5MHeqhH<);>Uc*,&a+PmgHS!7/.L>4a@x@wY6Z9<!'.=enPs#UyII<Rr6Ibj,138jmbA`qRZDs~iX3ILK]<lKVTe*jb
<+#K,,cLghP<F6X_9s`?|9JbBSU?bfesxM=&-SXID[??bccN@g2b|e6bXV.nv5HGhjQJ71W-j4f9)FOUi)vD~0E(*=TIR6h&K:'R$nw(w>A=>jw6?'Zb|sy
b)2Y4*Ow*zV^H>|rY%TsK@L*y'pbqS&0IL*8o#e~AIE'S5YQ+fndIho5^eu@Xx*Cr1/-:3-29#eh(?51nurKJogE#<J#%zP%*#zPdQ[K>e$)hLT+eyRJ^fq
@(wLXS+~:fc>-8[1Y]6YWw;`5ApZ%[.P#G.5LL]o@KT]j4S126A)>N]OHExW!rCih?^mAaptq;3X8r'ti-h0oG1!CK~aswF(cmn1]<!_Ya.Q'pHdV=c&TOw
x;,zL>&oI2+?^vDWEjf6@~!^)>6d;fk/_7naBnhavP8mGL)0a?yu&~D/h2e$lx!1>yS`-RPls5Qzz1#Z%CvU%4x0P+mYe|MDu]K?kK-~`2zxL%FyNO=i!Fn
-VE.tSJ5`5+u2Mrr:!%B?__C`,vHXE(9i8spsBZ@&s4t@t)GxIEdWn$,1fnM,x<-8kLGs3Wtl^J'h$WiCxVR<cLnuAix9`8Pj,9$g?NFl4z1hTTzP4dZ-0(
J=DyzjQT:E#eyR6nBn$aJGS+M^kY]9)?l*U`D>mqf(Ra`i+QBC:J-jI%iksJT#S:jW1nFDYHOsxx.:3KbXc(G;@d2>Oay*yyS><O/ip;#;VO:tV&5SboPzE
?O1(ubZM>1!zr?o=ul1u9Wl!SL8SzqZ86'q'yxRW(WY>%vKxZ8)tKE8s5InN2=LsR.TCb<HFSUlC'c,DC0v&fP$nszzcN&hT/Y^*6O;!+.`D-dbbN$j!IHZ
OPxxSH)Tb*~aP01d3i5np&J/GBY38zr7z3;]KEn:`ZK!t!z@ey-+:Whs/.vgFHp_j,]J1%Aa]PJHU$A8ot/CiG*i&pmwe@>.%7gP:&?,44fEv~Vpz!J.CEJ
XjrWF[!l;zc3r.ezZ;!r/X$~8U1>?MjEH,HH(wJy||eQ]`pofsg!(_AJ+e|9`rF8^DrGbYBg;SHHQ'A7EDrh6R!oRT-Ap+w5Hn*EUQ)@+pOI7!t]q;]h%E6
+'(0'[lJdK~f4=&%E.$$4Rm^~a.t#jcCiQqkz1i*E?~hT]ntI_t@$WH`~HoD(KkpUgINYuZ(S&,yq]'>B<JWFRL1|;X@9!1lHRx[,m)i!b?Yd4qAqUuTAP<
RIcC^CY&|E?&I!8I]lt[v]rqLPGsj.<)=qeG=C7D2'[.3Mm-s)I;pqCa<b~/]6)v&Itr*~rZ'%i2RK#u&Nddfe*S9/-uQ(0'ACBkpwM]*2NeE(?YKs4RC=#
VZb/D?+S9j)V,>,,xdY@*V|VFA1HMRq$6hxWF?n#6F[egM[50Dqe6#_<tYe0xw4,,J|GZQMF92FaLOZvL!:BSi#:.;[LI`QD^eeETx~*V2Q?V2R2gf?yIo(
D~@lTn8_E#YkTsT|Y^`7J%1LkyZi=gBb`%bG+bWVZT68ip`'?|=zrLg<l9Uwr$7yaxc~ph]iG8eFlA6t::k.Sx5*wwsAr%D_LTr!2q.%&w=HLR|*t/(oxE%
xI>ZK;|U.xy`;6y5q-dF9$4Pq>o|CRj^#lM)RI])95+`*6R>gP&:%hWockQX2%HYh-kiqL^sE6Pgi?sWs>8?oJEr&['#(q86sq@bUQJ|yi~-iCYaRyVXpN8
>$sM[Yxx)Dq)l~Kps.^2XL*x11[A[81uOF03)tu+A7x>ileU+t>Y3X2o<A)_,<1]]_hxDOFIQe1iSu8*jXxj/^~5&]hX8uz*<k.$in0S_ye/X<!t,@Pie5w
s~-|SIWX,g`#MT+OHJZyf)Y]g#1N0!_p?./BzI3n<b4.>tpv_3aNbfGI(f`QQ_Z@<'TORKiC<]x^*[MZFP_G!G:EnO*?'7CdbA[s>2Inh*4]1Y~lRF56%H'
9UnS,KW!%D8Vm3N&TMwW_ges#nyW&w0dfNrjh3U_-)_'e4bb>&#HVc!9Md.F],kF3]Lwk&Q$V-S+VJa_yAa,5&app6*Xt#Hf4Akd2_cL~gTb`]I@mUl24ae
T.Xp,HX*?]So1OSAHQBRZFwk|ydj*qU;C=2$;&0=6W+hy.$!a]7~8%Kb4gFkEeJPd8+Z*w$B*p5eq%?=^$G]Bh_*VQ]9*lHI:RXf7~PY97I;]&*EqT3``Oh
g_YB-d,=c@|YT)ndEju,WF>5IPIn&ad`n3Ux!~E*G@~y][@fVg:V0n8lH[r`x.[Yozf~b!nTR/XgU?AnrLM12(RIrK]5X;,-de?j:.y%so|AuSD2W=sd1P=
/M_Ld;tbo0Kpq8sDpLl~0v0~j`@.?Em@8~H60jr6Vf%R#`0ra]A;uYf.9<M=-v2ySiHjz41t^%HRc&`kka6]r3@:=o|Yd8QrdC9hJLNl~7N;C2cO?ZK~^Tu
Bf6H5!;j95:;tij^1ov3y0<8/]9>1C:A[utO9F-K7$QoL/x)631U+7$/u`~=;1FDwJ[aFb~akhodJ96H=3$N0cv!NF8faAQ]9gwZ00GwO9@;TW!4>h#/#vy
`5*UQf`sj'FQ=c5*2>w1'G]eTB_xe5.v6hEg_P^6X'h=1,E+|=4/&q5Y<O5Fj#DMHXWDv7OU=)*o+xAa3l~z@_oY3w(^m2,K1p]@R*J>JHl4th1SZp@[W_2
n*n;5KCev;5m'%t<xDknO;8g!EpT!@60L4RZXAK^PGdclxuJ;Oj|*Q!#IwLaZR=r=3H)u#PP,fqNXdnJBz>u[Fj0-'PC|X_bmAl-RTq*g73x5[<iq<2$&/^
[~Bluw(r!y:R%FC_8:#N!!<Xeu.?mTgV.vcfv#nghh<ZvddrgtFP_F.cgAh6<JJ<^I-P*dK]vB>D<MV4>Pi=)8^+'hyRVIQCjH/0EA+(y.8uF];4&<>h9c(
z..]BN#.)Ubb@nliHleTAgT:L-+>Vhb/,E'qL%H_Zs@(*<L)Tr_YG65u7NG<Qa)jYg^ZF`ACC#46J-<q-jsC'UOX2Fz:K:x&qAKYWGE-?d8:G,G4[*PoRe|
OpgbWYI=%A]Gk`W$*eY;bqP|^cesEvLw.RKW(DroW0@Cs4=~q7q2:RifCDD|[nyP!J$'!G@d+p<^;zb=SaLoAos!pV0ZeH-]~Ytbg3k(O0z(Yrh>^98()[-
>!/COC?8PfKa7$h=c]d_oc18[6S~w7b7m=.)UwiO)B^f/xss%RJvTDQ5.fW^2'~QK10Ti.!EKB`G2R8d;^pxk_>TG<e|.'jH&7R^b/D*?h4iVTOGcOlH12&
>].$[Gy'.!61K$y3rcrJaZ~MWEM)p:5z`%EsK5A&#w@MOIOX:ze6DYiSENZx%pw[4~vMhKv?luq!zV?_^91T].?>6l0_sWiLX7'!=7G,,O*13L#JjeaK&9S
%~8|)d2<csU1C-97VWrXEw~>w]k],/B7LOTW:NhZWzVrFzU!Z(QSZ:o-1AK9piPF;uZVaT'TIk),*stJyCXW8U>Q?K([)Pt`.WM7x@dJpc,j$<U332jqe-u
y$o>HT'(&q#+jvX=ceu^:/8@<aeXUY3>!TCi=pGK$iC/T7fyWblCGce%F!*4Ko/VdoP`D/4fWr~IPj<EL&+Gb[?xVm8v&G)OnPWXZ|TzKlO6Uh4v3pRiCw:
L)J1)kq^X9eiokS:^YB-MH8']R?PvxKUsO85#b[hj)i3@vpri[B2>HWQNiusobcJ]XXL'e;9PZU7Q^l3|LX;A/:3^BQQ&$F#g-cX<q=&+:0NawS)``Gu+#G
5r>KkU:;izeBC8$uaQr&bz*IPrTR=,QWiqBbm-KRnzox7Jk?[~2zp#b]qm5XT[Gvs(aA#mHO3rM4P,2Q1X)ZS~pMhEnPEZ9m~f:5p2igY55-FWh,4FVKAb@
g&;Sj+-I^)!<@sEU)k:-`|S9OP3l.SHgqMf]<vT~7lhyW4*`8/9e;wv5K;T`-_[a,[Cc#9Er6Q|l,&!xFy1T<p<O-%0SMB75m)SvY!dKk?sP!UL1Q3jtMi0
l36XAI~@%oWmDF|UePgO<WdRUNWi7g0GDl&/QP15D7THvFv[uw'v_RiO(Sx(#L).bWK'4i553ac^SU@Q5ExZPS(-m6<+|uTLhhi<d`9G:WQ8XfB0T^&,1?^
_5](~t>p2aIo&xyiwF#38qG]My2.prd!C=a>`!EGmuxPMRY7[WAgp+w:DsK1K[bn*5T#asMLKH$ihLqA@^N5Z5;Ta0MHvth;L6?Z-HKGHQC[&=cLP;4Z^+h
BDisH0!ND~a)h9R+C`1k<@oEdswC<G~=&0&>x/Ze4tgL_>ut#57P`ft|/;T_)at'36YB:_JTz`%6gdu:+c8H!/zE'mSOS|.T`jFLo^^-&?L[ZFas10(Yrl8
0?Ry)%1iXLDIF'r^2xNj+Wg>VZw&X(Sph<'v<ux[,..)]sZ]BzfF&LuMMas[A;1@|^I1,M[z=_$@)n!eQQ<x0aJxP@jBTK4D&kt(@'MO2>2R(<)Lm$t|/&'
f!EbD(aoM,nbIVJpcC@TuM[:*b,p|p3TOn$<@o[o59)gjONnP-~Nm`AE(`^eV:T:b2k.[EprIOf-.3JH?kxP)|VwimwIBc^WIV|6bz=kIPcJiLJjsU'3PdH
kwF~5QmKP`eTkSMMBBZX<MH9d[Th&VAxkGUyTSIvpMF/~d:Ug!vQL$YY[D;/vf=Yf`%:SPFy,MI$rC@2Zj'>_qKrpss$(aXmv:Z%gUG.<*'NL7(k]igZ;m,
/`cPm>V>4.>Sm.uH2SS'uE__|L(*&^)R$JSkse|bE2/u+oJnve~D.I95/FLZt<K4sxbaJsws-[d3&XWf!EI+99VRi=2QUy(&_pGn4'_'%$7(>HhJ`H/!HCj
RjPZJFVqd^+<U`v=-aKavJ?eIxflIUh,]Er+R@#HhAz|[c;EFgsZ#R#+9|xz*G7fcMrNu?TLv,+jh[<*fTvU-Go5v>^1>PdM_z,,RfSO4n4=Vm'JI6(n65v
@oc%FBv+c-TelGv#JAEB50Vy/wHZvc#^<3;d02~t@YY@pmL-*c]#>FJTy<hkl1mp..j$#Ky0?BBld]u/XL8^LM=&8^EYBN&*u1z#LjNcxdFeV/W?VwSk4Bc
!UEKVo0pYqK.:aib8pQRp4W.2E?*_8m+[sCa2Bn|>$j5QDZe&db(T`];S(+co?pr+1Wz9zl^MVwWenl-AgBg?GQbKEXSGn%jyoNfOkJBa:cQm7WUe(;>(e;
lCgd42Ue]cLg%Dv*|Mz+%15R[|_h6l]<L5ZA?nz7f6th%Vl!(uJFL*5vg_7m8myEiGDxHujVsbd=esE2AZe8O=n3$Y!$n<JYmN[N3H8u.8?zJ=1YNBZPdEE
%)[D%Vs~+L;hMa+*#[m(Ol!F,tP@If(rTgT)yZ1&30p(T<g'+7|D9;b1)w<dm^w.0D3:Kk;xo$Ajh$,'4(~@_@vken(#6+m@(171cX>]#a]%X$(g66>ZemW
efFyLD#3bR3)X/tZLPE%r;F^Bm!r/%KfsX]#r`[rz/TJTskmDcd9EjgE7~Y2f~ffe2O5WTO.>5kPTd3,&UA~@?;3LOuE6j!E<==DPT9B<?b*h^[s#.mn2(0
UQm;<UlEPjV<<1B~#K>)xf>ZgGJ1[^]Wrt_lrmE:HdAA%RoiK'!:<]|%d_JwKjt^v8]<U7q1g6I$2(t!10M=pK%e|n#Dk!?=5w'Tjtg[7q?dql$u0U]>Ttu
L&4$5|tHcA3k.MsU[jfNioKXX0xQT&ApHTjMdj4YiBf<dgKYDK0+Bn:pO~1?pbht3@V|)_,Fe.8VxPXdjXtn.N$(5OKxc|cS;uOD:<v7gJ1<2BHzaY4?.<w
O%!/X5naVuLbfj7:Ot0w0^kOj;mTj8~!6FD!Ag6]w.W3wyZoAXpV)N^SQEWr.q8[wNVUDV&/3:8&2GDxO#va6*.#mU#ysKd!`qcryPD>3JM!0iV(m,#Sl<B
6EoO^Sx'r<;D'mw1.;aVy1Fc(#f5MCzD7iVi)-<h$>la3#nIQr`&y)).Kk^-s5l[Rd+![tj:w?D^9#t5~>F>(P:T3tTf(M~?5V:BeGTvApS4cJ?io@.M@8?
?kec`^KLEOGF+u@`Yt^w5otcYwB3p9dRs],0:r:+yWZK8.sTJt[>||iG.X+C5xV/$DUo-b|f.Hx?SKJ<`YnC!a[CQJ&/AqZ|M1)x3D0),Iv!_;5ZdDYMMde
#x5E!KH4:E]%P:VDJV,fBk:9n%nX;4$'3,g)/8Yz~UCoODrN=c+n:&6IP~NHokTR8_Wvv?llP==CmAZ*7ut?JY1`pyo(kp8`Bv;S;o|lAbpKFC#$AIc:t@8
:YD*g3T^G#)[sOP(MF%/Ez'0ck=f@OtZvrTUb5t/2zN!2zILM^bR%S6.oxKkSRLk/5Y/R!;z-a[ht]r)%)kN5yH`+&t^m.MDp`2rf:BWZdHl1'i7;2V8_7p
on(Eap#'%+N0bZ/ky/;'`9:o?wti?]>)])1&(9>.yg;L:*:^VIo;Cgb;XzN~P*S6yg`d_B<sSD&`jtHkv[4Q|5;|Mv@(#(;X^`.%S?m<F6M,I[1pAgt4p*>
S+OUfHC_zAX8zG?m6T$k#)@^HC+bb*at+bP|&rMoA?Dj&9Tfj~c=%t=3Z13f|1Ga!zDg;z<W[^Rz;ce~3m|2(Z|Jsi(:8LLJr/4sOVxup`$YDM>w;XOA:QT
YdZ,QW%vR)vjj=&Sd[SGR`z_7nV)n'0o9854|%+yZ<aMXN>l4qcAc8%mb;M;%v6slnkr.T>4boD^4cHnrN6Aycjl'7$5^wD=:F=G00InDkwrK=/2?2wio&0
/`uf8u?VVq`[.+j@&T<aP?wfN~eC9:G8|!:`[;o)_1CT2Quk2F/<:d;Q-tdJ+?q.R1yCI'hfWR8!7%31]%UmHBOl&n9y?9~l^XP4zltC-|/!(b=$:>;<(~y
GTN<T7u'lLzAy3-2-S@(w;;S47B;hl^-phJ=nEreR78llu;*^M>8ONU|nZO>T'U?'3[%jFt'hB$gOJo>J=j1-+BI7#(~m%(3a;J<ko7o#Q::E!U0vu)=26I
mU1mn)ziS?q2jMb4`Bf8UZhpa.w2`;z*ahmDbsb(hMzPIk3tjO<qrogG)6^yc.yI*h3=RTt^1)S`WG&koEv0g$]XGWfu*x5^pV33a*jlCiOY)$l/SVr.VNE
ys`@Dlr1?NbUaYdai&*j/ijs_*DA5CV`%5^e&?3sR_zD-r!xS]hhV?8WP[/E(me99[lB[W%&SzB(=|4hs7|!;W,9=Loo[~rL7`I;SHK@Z3Eul6k~h~+UR=$
o&/jCzesW+;FA1G@fAmR<^iX6O4KB#EV=WpJ6rvB?xZ:]j;ih84WaM6>S-hbo`Vn==FzpVa/ibB';8$Z_Q-zz<M(Hq#P1mwS(4MRI6|C!w>nIy3Nu]^c;fD
[x0ur!Gqc6b|hrK0N,#T'#S-iGOIE;%]nQnobc1J,dy2Q;H7hw-(Gf)n&DRe[b0k<fz1S8iZ<N#GIM?+MUz.K>$p>U3-2PBb7z?Gdw0FJQIfu'gFabB98Ri
/mK/jL~~=)BYbM=8Q_A%kc'+Fd&hX]$r&u76H(@r+&,#LZ(<FX'y]$[F1yebA4QoXDTLRz!&@GYZ7GNj;v8zUZ(jW~VqsN9WUIQu0`b2R.)lca:XxRX0lDp
733lA36YxRt$[`HeCum9liSXbXUQ+?D2O1N~G2L|povR]3O(ZWLL%YX=(tft/?YFQqo:xT5lvo]$UgzS;s0f`W7*=*q.pvCd_HW,Gy60-1R9iej*P%,A`y.
d3MOU1Pr.=Ua*ChvcH=.F>A$he^lJbGc|D,Go..C~^RQv5L!oR/jjzT>n[7FlV5TI.Fnfpb@wjB~kLKZLO[*vu0JBy58]UE0dwN3Ky$`0fl`I:/nan@34^.
T#docZ4BiUm:Okm+X?L2k;][^>Mt$1qpE['+5=XDi;R.tYq$G;x%G59n^PZnZf58Oo$-^!Q^4[_5E7r'5Odo:zS:U9cd<Z6t2&WQA=D']=^(3O%2r567ti>
TpJSsaFhj(ZQ!''+5P2/S8rXwNWY`NY-)yE=lb!S2>AGp~aexBfV&bf1c6Vk1%9Bg+j|WT~;'po1'EP9/$;zGhAoE&?/p&xZ+mRvHR'0Hccw!`HOwNxBZYT
Fjo!6M68em0'N1a=$<*tIZXC1a>1H6B;_bt%yjs/'dM9KYZ:H,mto'=umk9bFX@bDR2*z;`E?VPohME'n#|f2%Z$g(IL2%4s8WaJi4>gP?SkRN1kqY;;!SP
P4kMCv9z!rOqM%ka?yT|Z`7vgVrh,Me!v:skDvP;]'_SlIDw.j.aSKpAYd+DFx'X+#$hfq[E0s.ygH'9uw@2$MV,G2A|kQ$(@)6pJnl*pXTbXoI,MFo$m%Q
@5'd&r,06ZfPht#t<$Op`#cQ~FA^nu$wD7M;W6H((06o|PJ#Ewow@myF4.R.[,56KDL))JcA_Q^4?aLjJqz5&NBz$@X,UMDjk~`Z:0CoS>P(eJVI>Z@u7SN
*~!C*]PUExk8HCQyRkYBoz!_R`VwAEmV[73@%-.lpn3Znio-Uf?6]BF+F@W;JvJP8A`cq8XoICb_2P@tfG^WAWW-Sre|B.uX+[hiXJU#c=cR5?t9g!)wO7~
,`qXc)or6[U06q[RWJ5Gu>TZKGeHu+w.BB.a!;h@0[cqTxPcJ4p$(<9Rs#2lTXCK6BA[hCw9,=awG@f28*Fl-/dPiWq@'_;mt%J&v@BHD8UF/:W;+Fub&80
z$Pd(eyIMlOcxO-G4_d+H>q[?<nD;1yq#Z;D?y^z)PJ[$[*dYL1Ho,4zOe5euj?+Zjm)t7sgj]zBKQwl.o:)ymh_SKv?#,,=ccc^f/oCyPcIE@+]cF3l3Z?
DP;4p#wq]g@]VgpnR!IfKJ8ub&Wko7$;Ydy!/^zAS)HR|f;s.lTa3dm(Y+N[DEg==8-qy~ssaJ;XwK0JcgN?^M<]kF&kj/$'f@(k;BS'`Hq%_15Lwe;SY?i
O.&z6qW-C0u|x;sr|O39oJ*NYL5s`dBI6R$>h||VraJ;zYyY-07d7~5d!id=60ZNP&|GPSHMao![0V<|y,h#w,pf$r]Iy9oQ.8PQz'R%yO0j5!@3VP(d_-+
Z#W(v9]JHXbCvjUM[f3`*ETI|?9i.iTa28.E94;N_Bc5f5v;MWF?9*F8'6L4AAPZ6Tph&!loa[Dn8<Nn*K253avBRY'_57L0c8LsItS3nN;.ug3~,P9j*9v
SX&J;S$|u-%!cl*TPB(K%pE884h&Y~Q.,><%HW~zpBNeL!>~7#tr_gkg+kt6,i9gIN)P[m%89/l9~Kn,<ib8XPP-%wn/_t4Rf5zdbJ]Ge;aZ4A=S`Sucr*?
cTBsM/*xFK>r<x`j[l,STR6zalpUgj9-_J/$W?MyH~'hE8[vg5A$tQX-b*^2(4J.&38@&NVLR/YP)!^6rt$u6;7/c%QO5*n4e>hz5vV^/XNC]Zlf@t(|/=s
eEjtCtAhEoGm(L~>z_=gG/M/;<kQ&r!PL?%!@r4*cP|JfG9)Qp^io+M,~4@fo9*AG8I|o^^cx79?y(4*hi~6F,Oy?>G)w<M*#bv^8x0r@JTDr#Xi~[5ZQ&(
Q|Tr.jvb'cCoQp77N3rR`sv(;OjKe&ZeV?9jJJ_Z[*//2-(hG>5Hy7LG1W)P9,]~QPe[ZT8z|b1C@-9R`+bI2Yw)Z)uDhqtI^3Lx#8OTcsynDW(A(/'T;<)
nB*NMbt(B9_Fx@v'@Id`4KG'*:-4/5C>ukIA1l#U#KRF<Xv&z<.i2]Y^PcV9#f^0YA0L1RW9?X505FS2+71Y)MQXb50uw6K&Eq<XkVOjgaKq^ngLl4hsX6a
Jd_(p3?QsBTay#Q&6&.)rudy*a~9eB32E5FO$Q',_lW6ySH$!31#VJa'u~^z)/?1afr-~-OH4oBuad>Xi']%~Gxgf6?oJz&&;u'kUQd4>H.$)8e5q9PN[(s
[,@,ck?C(.~j_C>_p-~;pDve!q!Jr<d<%xjuR?jS5&~N*nl/Mx6S/B<WZ?9T+>!|<weMP8WYvWe.v2Qg3(g4p'@d$ceX@$9^DT,wig6Z`V@*x^P0g0it4_y
oCO(HHW)f:%E8<`a2*dtuf:@r3[BGj2]-b]WyXmtO>NZ!KHPXTT=j>dWt~PTu2rN?%12p%sjMb'M$VDtVm?q>v_LfMZi;xV%&F!pxD!zUSOyf+[<Od<;[q?
Ql*#.WlR-BPs~XItlV;Q($cf*|@cJ-Af1YTyQV;h3CB]WGK*C`Kmv6?9^$Tu|<4UiFvPXE3Ahtf`gP6ec,C*Z)^t.[W4iWAieis?O4J&~K;s?Yj&c;!YYm$
<BXz'4`hq/,A1Hy;mh&p:WO|XL-t54EY/sPjaOAK%NZZ]?-eR,?S%?bx/J87@]^[XY)U=vZU$)sLutbSX*'lo,iNQ2wQOBX5>9PEs]svmSGf;+9VrVW:ST[
R_#%pzW<A?Qrl`=Y?`HFN:?LBIJPHYhMlK,Ai^MJymQvwB.1|4M~b_zY>Xp?bC<|/UUK[.[<2(uhdbzNAqa8ItLDg!1xT(.c#w'$8=q$KqSN_pntuS#~(ot
ct7^HZcUqY~ewO%[47[7M3!.z9Vabcp%?bV63/*Pzk,A0$yygj_d(dEpX6<Unw3ckBMR.n`r*n)AvpSPHX_huhw4&K5<-iZyxX#Nw]lZW~K$vI[:g<j6~1$
x[I-&?ne<=%(fmghNpK2,;0_hs+c4f,`F|s+'%S?3.pFPiLv/AIve!`dcQ91.DYu-_:sJ9IZ-e>6F0D:0VzEp-Pw_Eclx<:re&q:r[yAdCQ/JH25U2cEDy@
0=D5s!ONlUMCWRKyGzEc766k!ML%&SV6Dmq9xal)W9mZidy.h|gTBe.&9H_naIG~lNbO;_|D?T+XZ=/&pl%9Y?qXZ_1aE)A/uB*~wI`GWa#`lQ<E+]W=#WZ
mj/8_j?03lp>hcC<;?#CT<7&yD0h8?[ji&.9[.Pf4:I=G$JrKRgG)ho!x4f6b8xnP%+DFi8SW'EhGvLv!U-Ap>s=X>H`[|-#*ea/%-.yaC[@r-lzFyTw6WL
H-4g:TcR)TPjaS5.>owrCN@A#=I0X?[ed5(N)Lo+Q+3q|W|REXgsz)COX#n1zwHBHJ|SR2#]TS0G]7'D>RDo](be8FaA!]lI5C~!hlAn5J$qK^+Nm6T#*Hk
[8Y.HeQ,tsoA[fEuz(XPS9cKYMX0uiHk0<tvyndedMIw?4,*XRy/,HT&7+mZRGG&Cgh!(q+WyF2D+wJ0$<Xt5[h@5`U1hC5<Zzok_+zOgn~$idWf_;gyw~#
*>LO<pf-0xKwZrbmYRiR#vBCE(1(,i[i=F=Hj|3[0!y3vF+]XKIazJtU%2`7R5$,1=!,NMjg;i8jf@`)x=sVP0Px`J&iB^^uv9*AaGB!6s[nnLA,[,d=YtB
^!$.Gs[X?Usk#z2Q%E&?@pK1UQ!:~CFz5~QwOt0s5jLOXx'g`tUu&Y$:7Y~':lY500gxF4!]GT'XBg>f@T?-A;|jv!U[t]@gk7%#P&vR|0>A*A|,eqHA%+G
^6n04=r[t[+Yt[lnRK?4dz-w30ApC$)6DAsPpMo)hSjc(/0,i#hI*sN1vym-S~cVN~0MqF./gAYm4u&AtG(sjavS*MK?d^kVu/nb79y>9X1YBpYdiWFpZo_
'!Jb|m%e)yB_d3.9FSt;Ycj<YD%L@E]W`2L&<Le#YRef(i8J2y1-:amp*r,6n^e|`UMC#A%vO%3)FFCVqrDpD0Lwp[bpeZy8R/*C5jkbBUxUuS1I-aw]sV%
UA|P||9Ug:h^WgP?qC(6f7[>bD<cGC5+.l5_66|qt)6,Wg]e`k^T|YrFZHJF#<-e,No*/Zl)9-WHpy3zS;0ko_v&0Z];8[NQ/![@*=?jWm,-m.v>9<H3^v_
ZW9vm=3_p6Azv!hWc8H1tP,[SEK'3B+=@8[H&3)z0pOON-D4YO1=kgzU8JGRjNuVfUx[.%)9$nGlxGZl2-X_~&XA$X]j6aO_t@!azAElF3m<^;H--GuQ`xr
]t90k<|FnDFvt?R=#oC!LLG[zoId:-Ua=9:jA'L>&.vn$lqQ;hL70BR2Qk+NG!>qBCuIIP/KwjeUX@+FJ2~*Si/bHkM5=eZ]7_V)~</B?%@b9|?[5)&*?8@
K$worhV^vtiip]*~zudNu%t`1>jzfc@uDqHX-))RH~*?~G]%/w'g=Eo;0av_9zTwK<TrRr~^#jU`;?#,rbW#Eyd=IeHX8xG.>$m:1:mR5,1Nt4Qw~I>^<>P
#UQA8UR5.;[zz+y%3GKEk(--KqN/qTpLkhBCGO''Q(N$7P-(FsN$AfNA@./D/&m`l`SE'.Qxn!~`JO<6-%+F7@29e~CqG2?O;:;,@$k`^Y!~[Pg6q9,bzmQ
rShQ1Crh@BV/v8iI_+&SbNA-yeAt>-V7ua@pabW$N6s^I!+,^M3(!c>FHTeEuap0Y&[!2TbXKI-DJKTNhC-)GC^MHHv7U3b3AG~dJ;=Ik]q`:vixp9<u[&[
12wORHQ43/7u9[u1Hf$GX:NIhtJQp_)+A~eizk9n9[e'U:/:`@bHjz_]Zp8c)dYa%!]N67LnE[ASis4k5ae5Do[/HCfSSfXp^.r.uq<T%%g?8B<nGuJU`;?
;D9FZ>sLxE<-X(,#@,[dF!!o4O7S@*U=p<Sqs2a^i8hgA+ZZ`Qb3sfPJT,@.;W!uZ?L!rD2!@xp,?u_aw~JazsCPUE-]mRdz(O!*/m%&ABqs|Ybrd8zz#<`
>pd1loW!I:9x(*;-;6P*Gm~sIky6vImKGsp^N?zG1>/Wtax@s&OU140`SS<g44(,'9H1>?9d9$H5ibe|#eV*Yjd>d'.M3L$T%h#)oOZ~3nS,=pWF25>8;2E
(5=<oej4Z1+Ux*d[nme+!iyDu:5_Ic(CQ3.ygxz2`vLwR&he_ME]FzVFZMj0*TwPOa>y_SySRV@:W%I|)%!H&POh0s^$h9t$=VU9kko?Sxc_Un#A*:)/[YB
[oqi|AC8>[J^h+e]1`M@`>RXcW*Fowp/R7fK6IE@R$4eF(:ZAZ<~9yX^AqK7f6YZS3A&]H_]p5?P]jaV]mOa2OQrEQD.LTEC&.]*jh!E)DnxqHkl/w?mUGh
+NNV;wZ)0s3Y/.@xaJuc(;q&q9WSS]B@%^8OHm*`vJ|EKT72R2G(S:UQl;g:C'ypQhvm^?Q60vX6<ro1b$GyKhJ>$Ln%6EI8)u,EE-c&35But]/|ke/WKEQ
([IRn*;HD*u#$6;l$DEHL0&rp,S.5s?1yZ1`5'J]v]TSK/6oll-<3'Ro$5&d6c2V~/(iV7LZaHa>eq:EbG^dyfO1@ZF0l5&2`hfEBM=EfTxdL@;,wrQIST^
wjP^(qMNjT7Fv7jjql=w:Xa!d,[yu-;j$I(5Q(u&wgjP<(qCZ1kvzwDj;%&Dfo+H89RcY%U/bh|cl5b,Lq%ArNR+7;<R!vZL+/bvKxs/Cc'I=beKwtN[g?g
YW'N?|7(iAw9;[-Y!~;RJ!@6fvk>+Dpvszs0DL9E|7rS|UI.[d6^3J[=0B>CI_WlBI?-y8K0|cX*`YyJQR<=+oJ$EBpV]5I]gr!cgw'!DXXRDc`0)elLn;R
mRRK#qcFul'`)Q(EE&>x|:|[c.3(O)#0s;Fb%/!$9G0Va)qx7k5eqIP-g'v.?=5(i;XkML;G(V,ag3FT;`UP[-VH|UeR)QPq=I7HArc`K!*l&=DyG1Fa4Ph
M^r>2.&c`1teb#@FX4&[5u3|k+Lc5_+&3!pAq*?lc)QieM)>S2`h<cL3QU:x&^3Ki)1!ISJ(&8o7oZr[pGAY!s<zZC1F+_t.UMsZDa284[NdkPV~cE[LjB~
sn!9lU5Wj5kV/fKD)Ht)s+v;-,03~F(1jyHbXi>PepzC*eCW?UW:7*(o-#!e_.s2z<8Vi*=&*1('<t:&HwotpV&5X`li5'WtjilG,=e~?N+;QTqH|Zm[Np.
<vKox.+yS<r`(9QJ|/0k[jM1b5ZBP5D#R<YJz1SJ'=1D*$a3]3r_Tfr77Y)Brvi-YF&/F)c:r%J$6Byre$?t]n)04]_R4VRPp.;'^XmWI0JVbMc6KEG)y4*
'|-$4HB.|co*H=gf>w<c~0o?d#B8:T:MkL4D/T_wAPd5S%bhQE7>8AAzJ)h/nI]0Eqv:3s%&ea$#!FrM5!H?*V/vn!;@+x|)S<4Njmlw$y&#f1irV.]as)#
(Ya.zDAW:cx;[-MJ|#/7?/bG)11$_6V$.@Lzd*n+;2(a#JdeLnt^nWg;>I#cr;-.ukrjgzIuqwjTI>N~/P5$*SrhSl`Dj_ICPGu:ZDn!(;79UT.>l5j.t^)
s24kI`1O`pncOj;~~B.U-1a(uOo2D)[gT-5FYe(42>3xJ8^tvlFv_!eLA^$O2D=b0FX(u63248g6H6w?X).(VuiVL6A=s|B'j^%G|_|-UG/3Mh6JQRJ6keD
@['z=@9'mYSKcsm2~y(ETD2)T#ub1hBySyH)Z>q#A<y~Y]tzMs!rkGX^Ug5qtZ!Xz@RjA8m0X`&Bg,iWfsS3Kvmx&0k~#jiHNDnx'=_0I)SjwtT>0+GrzI|
`~'_Qg='5t|b6TJ6if0]MQE4|BaRO/5!&vuDYGBNh<>TGO8A!p4-t#:dIuQ-o.BK0o=Zhw/*nq*.3O.vmmeyNU0@59-B=m5*8EWVjmez*/?K9<v3wN+!o0L
+CyA'qVf-@lD27j`r1HfApvUh@~[W9d6RpW4D4%GsN]#])&xkItiv`Y!u,g9tOM:oRyTVB_(gh9``|C)(:EcV$<1-qa*?b`Kbk*ap9I=.Qw`Z.(Wm^KA6Kx
TlI9BM;MFh)By-3^U0xkZ!t:w./u<E5P0'A<=lju0fSCQ-P&Lb$eQJff=tm4>E>T]xT:&@blck?p[|S[Lf36;(V-Z7J:]:pT'`nuOA:JrFuWU~A#mO>%S)L
x4#wY<4A65u!.5%$JF)Mb,gQ_aUu35e!sPh2WZq/y/g;#$JQe6Vd85gU[`EfTK(=<l`n(7KZX'Yc7mRCVGHaT%,[K&N7IgBtooh%QVybb)GugfSzXu0I*K#
;+HHpk^kb*9NqGH`v%0SYN/ochL;E$-iFDmSPm2J8DOzQ$?rb5M>>(U0z~lcCngJ$u0dEo[4=|GLBx%W!tRGQbsg@>lo-FgqcioyIOkqvv@<y+?5:H1YU``
t[<|*VZy8EA#)XrAs/OC1E3.LUF.F:hB:@@xYqX+:J+pdHTFu<s,px]<v$Y>!]wJnnC/`[bzXCWR8v%^A^u.bi8!WV0htcG+^QK^T];GKd$QNZHi^`U4-A7
X3G|z^B+]/5;W')4?N,4!Uw!*6IOe8IZR,biB37Dz`[u3PzFT$,O/qguFK,n1(d@=RXBjEzGR%QT*j>^OaO&LX?6I.;z6d`uloSEtjt0XHNo8!0%?gDR+z5
Ij%#[ySOvLxk6^Pv`r4ty^r1NqVZYC#v%MAJR%Ww-eo3wsS/H2#X=.>jR4Iun9]2ib/kzv^8el1]F4s|RzfRGQ;6F5(!w>/H99n=y4,qf<d^VhYXeh?(O%A
2<@|D>=A60b5nTy2/5K$d5GN17Ob-(mlgs`69l=;|Dp$|r!rk8CBGu~HZ:Z@zH1JA1&EzpXE3op7,Fuz9<_qwiJ|.*-v~dkNOtlUcc*UZ1tqm$C(Vg:K32H
su.EAB~|$q<>@D[k$G~|.-,1pVE-+*9`fFq;bi/x=EuM>aDI,Xv?M0+1ZUWWwp0|5'F|vb`UkcjHOYOE]DOz-(V?luAL`^WaT7R#o&.+gvD@t?4hBm?Lh`F
*<%:f6-:Kc/eNl!uclf.h4+#J@nR@~Fx8IK8b@5.N~m|5mK*Ud:T+(9QpB@@bbI0!n;C(AHwG`xoqahc+g!hLz5TBq64|Z-0AUt+K&tn:tW<]d$B#uOtbQr
$Z1qa#S=-_~+6tq$K^fvNfj3Ws7i#txY/5o!Kfgcg<P;ZM+CBp0;@%b%ev|^I|`HJgB+N:#/UEOcy@L'G:ORH]Hmoy@80xFEZOSvA?<k~D%(Zr@N!f#t+!?
'uUz0<FFO|v/8hxmPqjni[.TmPi0e/?D~CuXX/j3j+<-<j7Br@IM]H[!o(/dg&dGjHJYx&g7~Ojw+PI.GAghFek~OgbntA1t,3xZ)5LaTLzWmAmz6I?:gFo
izVRQ;xNnh|,UJEg*?V#)q8|F?'VUh4PjLb'Ll-I4]^j-]-H!wUt%o:J=>m2r&b=A);iSW,WhCAb^o>9)YQKr`9mScSzNae69_?Y0sDNQGF:59(Cacx|ZD>
wd]!(gE^ffjF^,hlvnOieLZR*IuH|^iBbFH_]&HVu0|*58y-$j'G,ID41U(=9v--=MGuY@pS?xWMG5]Np#D0p;sLhPVSOO_4xx=a$Uk`bOfSHQ]'/TuXbzW
A@1$VVe8cz8+E)3.>i~)=U#S82&++'D%x9(rN:v82)2wn!vobOqN0wN=Wv5ANl@C~Vsy)X[B1o$buwl3mRU,%fF2uRQ%5VaQhKDOd(Q9ciT)iBb>3[Dwu.p
N_eQa6#80XTG(aWVd!(;,fIXb]G#>N2:G4Oue$R9~oWCPa4O?Ul0fd?2V'%mT>kyE)CL>8Kf`jT?ca$f`|8Y+G_!5+QO#f`iDNaB<8u3)<^#4yUr*=^C&(b
^TJjG+~^`k]BTs&E0yI6]Hgd@;v_Df>k*S1(,B&*YIqJ?I+bfXuJ5.63ud6>o2!^ic^S@7M$Dj:ext[!yqO~&N?@`W[oCQ0/RYFn/:.@0d'^p:Ns?TggHNa
W_9KSpeu%sI6|I%0D+!s.UclD5]tEwF4R8OD!KRK=]~![UY0oT<Z(]TP~zR%obHFUz**mk0=^Jt?*iJV`z%J^;%VwCfDA&,n/$RHR:Kp1-e?BCSm;YZ60vB
y=,J$$J'Ha;~l_gOBHy$u5r6b@m_eP>`n:R@?g;ny*n>FRp_OrElm68Y&4-0=Ht>u@Wdv~|Db2R4*RsP-4uKX=/H+6%t#Lmv3hKpI09?mYYr:HSw2.J[H)S
y+pmv@dHexi)|9Y;f_$1t)Vqw.,B]TW-G)kQ)Z%P(YA*S8=L@2L6ftkTo]KiuNGnOT5+e4YFmq'*b-o/8%(Aj~ss8o[tAs=h@i'v6D7FQ7H7B/0QPB~B]mN
EjstUUb#:g,Mx~b=CR~ThBr5M*FTU-S?j_9$->MC;y:>'0)|'vWaqkxJ@4alx$n29,r#r>9ck*uWf(bby&%btiCw&0)4d~AsHo5X2'vxY7'A~R~enYzdoGg
^(s7rk0ovVb0,kk+Sj#!'s[>PqI*lB6qH&2GmgdiW4KS<&I)x~!/RbEyp#wYT56;BbN;N7nhSvp@BA[$yl&X-<P&Q_+#(B-i%nu?MuIO:qRz'UVT.=:i*oz
(fv#q;??jDe;!uClv-2MLA#1.L?SJ>unpHMdx-/MlW9p#m?9@@H&/zQwsO<yv),B3bq$Jkcv;d@C!9TFGyv>O0O3@)2H8<N#EI]_iRhwa7X_2RwHt@WnC1+
'Z;ABj@qZ-n&h2|/z85d<HM@tbGcDJ63^O(Hhe`4#Qh)//'9hWHarkf]4rsiT*!|l$06y]74b;@c<F1VH9`Lq*nV,2y+d5FyZbnMzW<g[%H!a46=+.4#Ryo
~,r]^/[myE[MPSn^mV<6M;`Gi8*N2c1X_%b3I>@8>c49.3RbV:=pG(D9X$'?1hcZGviwdt$T7+CVkenUvie%>/l1@8FfDv$q)5qDuaDfR9s?]Hkd2KgW_?I
<hKrK`4=s'~n!FjF]L;H86B#s*T)iIV)3o&ReMq]2<^!-Xm0UqnTa'FprNA(d3/Z!;xd|3qIZEJE#`'G|jj`G!DV0ADvebB;xAr&9k_N4G+=Pp96LL]m=N0
)C33ALM-TZy?:Q%W@I<JQP<_>G[X<0cBh|WSIawX32tD?6wSk+TA`U[8aOpT';,.N!;kgz(laT[@clW,QC]xR`mmFgEB'_V/:?w;?)kMevXs#OWY9F-9URi
(L+)up`>t-?hVvS:Oo3rk%?VmqdRA_4l)vMj*'XYBGomQ`vz=i,3$)E.n91U^<dR,Sys^>%,[dh&:'q5Otf-aL(PakIdIXw>E@Yy[=o7rwYOJrOUh8iySeC
WG]Tk4ozHv~qGlERKNlHP>v%8~W!Q+&sR@r0k?d5.u+2XIJ?E%Lw+M_;*<m/d|,F@>)@P/jirrbyyYkxazcBu|MdKQ2>L?1/2kWk/Hj|!S$2S6cuFE3>$cB
bg99cCrs8I.m7^8kAaA'$JR,c&hk$?qY;E(j,J*!-hx'r)AdaRSRnKzF?:3Fej(:BGY4(#3pbPeeAE(GRGY,dkOfD_%zaa1=mec!,,a|YNf=IVj~Le[4jnO
Y-Ep3As8]@+SL$w)>s4~:`Z^H;cuTCLdm[8$Ap'Iwm@1+?x:KnLD>'QlPs;-0#JgTU-BgLnhwn[U?~R$G:@5)3j_`NAeB@q5#m!LSw~rh*RGfcS~-=!D;kE
|'AO.2%z%<00/ZL?%Hz|R>lt.lAZ8?a.)lCQ),?T=*++o59-Kb_9&~:2@X2cJ#$;>o:AB+4]0#m=/Y1wr~32sF(8a'QYh'&T>Ya|,Ov/oZqQsUo'Y$3aoWb
`'qqCkzqh(MfR<XP2Cf~nbjVv8R]M=q@:QA7CCU7DC,NZE$RvoC**5,7R9%#y=w1Bjhwp#yu.L6#3v)cWVr`#Dq1$V1qyh>=1c,Lk@Mz=)H|TZK&t<yps~&
?[exL*bxiLIVZn>k^sg4-`pTsOFO;*x:66hYW.71Ag+qfT41R/a`r]`oSe+bFazUBbn-qobtms)9nRDMoH|Qw<&B>>76>8E/eYI-QsuYs||,s*>>4^4dk'N
||5Id/k=lSIU/4X2kcUyt%U9yMLjT2B|!r)Fw`Yx)7mWA|(nVv_6XUM2h.K0AC?JBAdLW)6F8~Ci_%!A4UeS$Et[=Kz&Nt%30k6fX:J,@/e(r4j;dEUr-Uc
v[mjDu?KNCMCY_7-9&xI5!b9!47a%/VcaO3dUXO-<tUk>kekOO-s['b[$Nk0E')7^G.%&JItFI[@c7~*?iWH-1<t]I^E5.//eoItP*UvxDVfZ%[#|77gEP2
?]wPXEatGloY)^UD6K:z%iX,Y@HLNrIlc_BpN0iAX9~TqhS!/i38LQ@DfWL^gtxBzTl.ST;Hxu&TFtvNsb/q).WOi`]_5vhyeg||=Do9U;|mWSN@3LPm(?y
a.^E6sel>Q-CXR`vyhchwAKYDbS$hFO,e<8U0)O]2<XHC*+oTT[].yY;MXy;=0P&eJ5L6Awwr?NS@DzT<qZvQN[8:H%,?=<pxHH2@:QL3>5.H[04?N@xf59
vm^fTc3$vIj]oU,s2CB(ysV4+#G]-k.;>x5rJB2|Qt!@>y'UO6]%:ex-W6>g9xC[=%2M#NS@oC:`$4cF'*=RJ:qia4Ax'$:/1P_85h-AP43f:-d*/RqQMqd
Tk_DN/5VeJ,@H)oqMcIY!rEB,Nk5&9f6(Vx$vG3oE/Q%)xp4Ba<E.p)HOTSt$JwZ-:?a6scq?;p)1+~BFc]M1+mV'<B)Vk~HN!u!D3qk0?xb+u[PLS%~qT;
n-.A]7S7x*mnRO1PP*0sI4DRw-V[.~HN!0pW_ygc9dH8r%_;cOhQ8q;FVs.&Uf=F7M$Ha9pZz/#Xg?xm!;^bIc%zRwYq0)NPpN,[NU^1PYj5N_WF_B:,UoW
I&yBbm4%jBDKV]F+Wy]P4x]oMEF!XW7S1Cj%6)3Cb<~0#=ZNli1(+yI1hXqnGnXN8(q)m[ble@tONtRNxi0em3?0%ZjfktKqx~@IH6:0+wvK7yjy(g[**pB
CCTg1YV$h,wAdYvRrRo2WOxj~FRk]UC4QS+V&8=!u76E_6y1YU-.?Dyd-y_V/Ezv5gN)D5~a4u`jyP~W^Yfm@2Sq+Vuhl+(tGCL)*A4#8:-z7''S7bhE#VR
C^,%EijXHJtT$mD_=Q9l#,i|vdrP&Z-SmJw^ZXX:^~0|X>b)9*bY+ijlYG[_`Hsb.hlIvU?x[),acvcp<VydyCt[O-@a?7vBMt#$kqvTdkCgd@T#.lH/yJl
k,1?U6-pn0T)lG9g3;d7$k&/tDK1,L:Hf%8e.IX9,gzpfub^AO]g?nrbTO|)nbX*f49+ORg-@hZK-,e`@.!tJ8Is`flaz=_):Zt[JVk@nj]cd_Bwsmxv*FO
h$?A:)n_^&duu7T4C$^P']!x59#59'=u:H_[/.WU4nq;|9$rLQ[ok0l@eTmT*CSA)b+pJfeKI'|`z+n;m'<jNYic]6m1vhmJ!vmIg2:Ebg6O7cP[4L`_Fag
h%.,m.uu-FTNI+i+k_v$H$4PMVKE7>s^c,>_(rx?8,(zwn%3_/E!uHK6`Nn|sKcvJ~762dDT5_KN~+h/'D[ph0J.;34g_nb^%yT(c3Ej0AAV2/8<6QiB.xM
t+cdCs$^.tUc9>LUO)_E>$BC>eIjs.pMg0g5@)N.`VdQU`Jkf;v'Y@U:[LkW_d|]9E8xYKEbDbTXX@le&p8|K096;tvmU(O(]+-M_O-FpdeYWCWwA9E_Ez6
S]rB.8jMAuzj(c,.l3q?^Ci1.DujOcVh1H0;lVRGgq~R2=QWJ|F*Z:DZuD6aD&vq67jgN]#Z`*_,r,yxxHC=xxH0/P;~cR9+xBRBIFuzBV5]'p8I6hfad%0
TVW*A1^|1-A(fO#=ObCS[::GBxStko*`Vsj4nS(Y#ND*C,S`t[x;D0ynq%WuQx39D@4(+!=_7;M0x7d]HX9H?AvN,v)aH`K65ifck4MR|*gt`dQ61XZ&Tz9
akKT`7Dyr$Y@Mn@@v]6!AEuqtiwj%`Jt?`*-n)2A#LGQ5ewV%kNKB;D!b=I[[p@$b^q3zE7XMIqah/?5cV*nGgBk2_Q<E<4qG!]*D?+G&u[h)vtXg(EBH`#
Ce?V6dlL_JWy(-S!Ly_=|U^I^_lqSA&Pis7Ty:R8(p$ZiOhNyFVpT62,FU&|i`eEPO,>^*+n%cJn=BiGc6gp,e#PkV1yf&u5Py$Vm,dD4k`S@7gf'nD$WXE
@_6|`?knoZ)KU)S/Ar09uEzdEhC8pL+ygQr`M1tLGqO$7Z~208Bnb`<Z#(Czv<L|%&<@MYuFGS_MVlR=kp+B*d2j!P)XMDc3-rGut&A0CI;>IVVh7L]]B=w
kT#Lui,3aoQcHVT#=09Xb7R7;f|)eDT``BD'KZ!B+L^l(/@2v<QgvWN%c]VC&#Retu_#Tj&]Ba,L~8:1-lv^-6:IYM66u<>KEJ<'AFhWq/xgceLcYJ`Wz8#
'0OKjH4+kA4yE!Y5E]_/A|;3zY!3[&03$N-`im[&qR=z2#k9/UV2~K_=E[oI+1h9[8~dQ|Wi~ALaNnKSU$!EGNFrO:*TZj'X#Ms=GI3mA*TF&ZnrV5+s`VZ
uEP#||d'F.IIY)i)J8Z;:(3m%sn;%Z%iix;#5E-dBkPD~)5o|9K'I=w@#9OaI6Q3G/_UD*j(|_/)x83yfT+zXZ<5+fK~vp&YDBex$0M'9=51uXHO--+nJQ#
Sq9#4PcRikF/Re*Y^e(dN@TpMtHk`)X|c.dQaIZChwJ;A3.,M9<qm>7U*~WE$ySL'r+H3[ABVlJVV|?W(<^c2%HzB*6Oo@CIG;Z(z&[:?E*|xWa%0<x8(j|
cHqHzeE(CL8]d5jt[51+9XP]M3d4M,@T)'Txkq=|t%vGPyCe5|uv!n)f|k;oPA8xUF--d*#8k?U2spG()D2hCJM)Vs8f_dDuX.YRGaC9EO&!ootqw9:ig`W
sgE#*D_&Tm'arFz9lo7iPtP&;-vFM>BUB$Vq=z|1mS|99;9i-DW8Cns.2R9tAZxhV]c^Rao<X3)[!EPHLk29fQqKF%CyGN|F,iXemkig;(lRiA$_(S8q5y0
.K9!xuq6&!`n;i3Q)4~^*Yym%+pM_c=o3vC9=felr[>J79;q!nq:ssXeh:4X80))CTYC9-&@ROc~hBuXgS%7P>!O&c!e2&?!`4N[#xt?p'GYE)T!qsPj!lf
S+|9[LNzn//wo^m13`%vzna=wGPrq#:SZ1!R)&GEJbyW?3#A6,h,:IyLX6](fRG+Z7U_$gYgC*_bKFcy=Qm'RTaskw&2[bGzfbHjumO3v98TCmU&,3elN5T
MBNIKm&9Eo|;T(^ZZJVkYXGY,eA!Jb%iJOgwP2$jHX]s>QwVax^N53x:9`de^a/x9U.@i[FRn&|*1zxc5]1_*rry|IlxpomTx$w[u-Vq,2!8ftH@JF5&oI|
i-xC3tIJxr*15]$Nx6?4UK9nLT$~x&qBF'p#Ve6k_dAOe:+uZSg|((IyGj]H=|53ubl;>~xJB>WW~o0_dxOm1AH]I3VbCrcK8M2(U+@$pd?%EHzDa*V$e,n
3<Fu*~$dY7<^0oOx16/zI8etz!U!.Xs.6XeIX)^H!Q(GPW/n3`JB(Zx=YXQR,|rxMk7q5w20pE[7JZD2EC*nmkMO,,<OMC|+|:SodWnf(;`42_(xrukd/W=
5D4LMp9.^k%w%2]A=nU78_Xm>(`QO4wk|,|+K9WC&$!RBVotjQ8C(z_%^WWq]uJE^hGT-mBZ^/_4vB7DcOEF_|h-qn]91NF9vx7Ar=Ju8#$/uWH;IO2WF,c
Phs~)1X5!YOe%<2gH]cA'$]G=^x_a3>3R7]N49X|U4!9M^%O.W[*So.O~S!bblExa&(ZZ/i3Y4D^!Ky]'s@BkC(PtIDqj.F7C3yIAwC'ly3v_lX_hxe^a](
il*Ty->xWRg4N/n^.saJp6<D.#Iv+PLxt|gz`u^<MV3|Z*xNQsV0D6f+#ReuAW~B4xhd0lyzDVjtg>).~Aq`pD4'sX_R?gpd.HQ#tR>>z$AwA=hzScw2Ish
#rGxk=qEd4x+iUZKW]OgwS.<AJLh0dR];^=x;?e~plf^D%`O%D.(BcRR`hd;8O!/3KDUYPl:Blz!kRDO4oMgYno2o_oA<n/+&EH'Lr?~26j|[*/0VrCmqVh
PXbf-Hzg22$66k|a!)cz.6xE-pc3NWYAnZh/W5G75OsZ);pL+$0mNoktp%Y<YsMC<38HB@]>JJwzl[#MwVnrH~W_(dfwgH$]wV5#^v?OPnEW^CVH.S]^IB2
-<uO&VY*^?QDCTqg1V/Y?yk=84:*oa&_e^nu]_zCJ`CxL`JR_e>020Y?<hslKqvxaSCM)ZvJRmx:NgUSk7*yr;T'pE05*='4T3vY,tr<!#HNBwjHGYz>o6p
]Mub5<'UOZ[!o/zks>eNZInN%WW@3g[0Z,H3_=m;vaPNTOlQAzHMO%fXh[<]QLI.,ocj!oHgp1gV$'BxMSoN:5OnKP7;36dE#M;>JszMaq43MU/Q<Ho]UGd
<c]K^M@Z,)5Mgh2PM9J<zp*o[2?08zB<j4n3x2&h7tN'rwO[7^;Dj?w3Z&|]?hc/r[@/24KJybNsL*~:;`()=dL.`B/m6t>Xv%Ff_:|A)?@&|>!*DCuFT*$
[~pD!px-oNiJBFn&l,2b.-zGbg*.eyEQ7e$8ef2f!W?8lLZ^<n/%)EA6,N#r,SM&EC|'rIt4d;)84ZY%/OMF(Co,z@0VQ7qq:D1Pu#PJ$O[1q<)bWS@i*7p
`eACZ%%_,y7,;Y~@Lt1arp~ZY5';!5bwVK.Lv0C-vuOG[=JxZpAJd?B%E!'SmO7ME9jr4zQ:^N#6nh6:?4g_b)hZX5s3R%z/GJ>9I&h3C0>IAa__C:aWYmf
|t;*zfu;!jrYVskJT~kuIY/:YsY67HM4C#v@<aK/0blO`Bk2!GfiIpNrPRB%;U;+<2Pvg+]AP_R!ndOjy?D+!o@,(|fIq(w;B+g`(+/IM3|ih#&?r(!]8FX
5Xd]hhf)AK,YPi?%M7`7u`CWwE;eFNQeG!M('0To$V(a,.uZ*o(Pr`<mbAWc%5Zj`h9>Vg%a|UgR*GW#'m/2gMEyGY83*@U1HhScgiOf+;:JU.b?v5|_9xx
;0wD|#FL=y,a`?,CQeT~*J:Y+^YXKx;382R4,@$odF]zzo=MS*2K26Eqrkz7Y@^-3)Lz)-kk#x0q&$|'6>JN';=~b`xS:Oaj%vgFWpJFw$;g4z:opc(c>V8
eLW8F]S,F6@!0btuB%dEoj^tNH]PNDpS(s))4(uKzOFMVuwOCQ6h-x?RmCo/P~Fd>m_o6:&aqPmn~>RAI..dt`erOKdAS.&[3o@8ie%$Es-F<DPbV',u?:k
|6?$b3v~)x%H3l;%hFJ-'8X--D4#o4i?n:QiEE4mRM]y787RJi,<Yw`=t@iPC?gzp,rF`jkO>xCDAW`(ZQL;55-tTRg_x>uRI.2q=7HduC(h/_40MmDt,rQ
W5lXfMI,w2]joxZ(BO^B~8Jy.KT:eBEQy:,MZWLycPZBAx&Lol7B3KvhZPH7Xk-@Qh`!|f6J*5|FH.ug:+-IUzT88YqF8h5)yNa0+*b8^[=agA`vC6H.Bq.
h]Z]E4<osv`hXqJoXY@i$Iw6D`'A>zQ@zkKE-#o0JPsvX8:fHt1B%u<hf:h$~>X)x/_0XCYGI(?0?g)L+j<.L:kI8dmf+ibL0QlPC=Aw25KOXwsY[>&_&Sx
g,;j*Bb]BlG@S#F~~wUafjgP>urj6P>3oKjw@#wp|sSx5Ck[:`|bc]>7*7mEWt_arvxmP./:KBTZf-nZ~qZqtX#Gnv8IZ0qUPE?H=GIkg]i6$(bW_&iS;vc
l1rde8v&;-B0+6];r%@JLl7'-?<R>Ck3^78aPg#Ye-$HFbK>r$`CE|aBV8*rTVKB,S3JZ^12<esihF2_UE|UBJIAb%k8ZXK00g!%O+B/.jQ,RF*GSMF-3Jd
s-*(^t1iDF.Vz@~jdv+k'd<yx8TojCm'RQ=6VU8m|;oz:W4m#yG--*R2Wqg)GP&xZeYavuY?onYhC^*ULuXxh8ngRhWdx_kvKKfN>>ea<fdn.,/0NTyOs^c
Vtm8[7b(xqnd~Zj|/m5VN|x*f.6Q6a[xRg)3qTp1_2%4E05*4?)sBJ>1;%<^mq.0^C.1>2gDoBdQnFL6HWbUe:VW1Ag)[ge'H6h]4&Eq49Ne`!>|g@%QXS<
L6<kG?@,qnE6;(_BcbIoZ06);0ev4kJE5d:KoS>S*L'#W:rF,,(>pLjO'&>>vQ<S>Ye.3J~>RTgQF/#3|Pg>LrfH|!u^?SqVxk@5S1V/t9koSzu#N>thRVQ
._q'<j]M'U5$^i[(c_`JZ1^0uo&`seSH1]g0#?kA&vFqPq$%,ayc6C[~,FW--FA46.+t/wTYH[rGd610ZUk!eUIONI1&6u3$bzcgv]4J5+D_C<t:,1mVRNT
;*9C#x$fy!k$h_NRo3SaBq+8PkD1@im?oNRG*)~x=Yw#N^H%#3=Oj*As=*s2EI0iN3xW@K0)a~5V8>9Ti~YoO,D]K=/#XHjek$ix&,ul,vJ>nM8duOQ'#/'
O,|U[`wdb9On0+RzH.7S,vh6M,UeY]cz6v%A+3b=B~w5,fR<d@vV/Og)V3-`g8aCv%`J&brF?voM((aTq$5mOZg3<`&,@b5.rSkQ<1&b:;g~]k*mhUqr|n*
dkF38%p|>?4cQDn!Th>J<NSY=TM]=8BMziu2G[]kX*!doh/`IMa0f,AxxgC53lCvyI5ZQtg$~v~:q@/GNbkx;zIlhctD~z_l>p'B6UqCl`ePMcr]f|~P(#V
z3F(cujEHI&-rtNp3.Q:%-]0f*B$Zjy^d,EwXCtVluG5LSSAbl7=.?P'Z1ihkqZVIZR2Krm?k50T%z7OmaPJ,17)]^7D;Lg_nA0,:avK;X?GR;*T&V:20UW
J`w;6bPMKXm52^]`;A-0+a!I2UafxyP9M='F_50Pd`xC=40>+~)w='L/2h[$:GKb7Eq+0c6Wz;'^!?5IT<*Ih)2'lWVnVdh)'+p7dT:8u<gC$,^B:83j%9J
<Upf+;XuMgb0bxPUYo?()W|F.t`Ey/|o.zu&^k'3#ot'Nuz;rccmCk^5%j5:u<>;ds_@lG'i6fM/p1)ap?hN&+_?)2;*96qoZ2f7+]2G[Kz1$4qPtUv+XJ*
Rai0[.K@GSX%hIsB.<o)0y9^.U[0J&aoBu2Ta)/iHH=bp;QkW$iM?mvw!zwQc6L#>^VZr;z!5GW*Xc#lMM]'+nyS77buTjC,j+LF1[^5(O>42pj[/R.9$b#
L-%D:;2/lYAk=!R']xS3[_lB*n;Wrj|<F7+akgS=-ba4~u*yB%DT/>*DOOFfncE~.rJ3y,$GqBbF9V%07Sn!&zLxJmam#yU0.<97c/Nlr|O|ZN/7`H@rxvR
lsu!S%ySLx&lh6IcE4#u:rpw0hN=HF05-C:&Nc?$_Xv(8C)w)/sF|YySr_ORg?!g(7f:YH(tEr:,WT-qXOaE+4ryZiI!5co1j1Y#z;Ibo5%*0gbLu~%%I8a
,*@$AxF)z`]S#)xd>|?fCj:#m>UN5RsKS?`d>=?Zh1*`PHnl>pJ>xcaD6rQyikdzGT;'>MVokX39k</~Ud+t:KM&6zFGEH*h[uxEt4_@FGS'nLT&fB(6*0i
Mc##9kZatVK+ou>LInxV#z|pYHRfc0DS33U>FsQi>zMTgL#)iPbGdNQ@v0XW5jBZ]96ayM_:NMfM@~&P8ta$q5|Px&-m7,R8=H=wPJTIF><x[w$BzWf4A!Y
rM[o%,EmD:a]MMQ*79vb5Nt`t+9J#EOQl-8l9Q9d+gxuqMc1T=2.c#^SNr),`2oJD/dMkDX.CsOYU2x:!K_Ea*~No[A,8FhlEW7`nGU>=boU~K(5|O(C7Ij
&Q'?7)-|Q!q'4I.L13<ZfUF6dQa`H>K.cJzhPo]i3iXbnb1%Jx7,4:[!B'|EeeT~dX?S)ng/Qv9_%gS/u>.hW2wX@#,cCGfJsz,l+ko9*gs5gHq'i1#2G#;
Yw6Z)-]t|TXfQc&N`>@/7aBf*SwZYgcXg(tt]Qi[O=+RwrbTl6%1s9*:/(_4)4@oxd5p]G(,aer]8-=4@G+0nC0DM?dBP'fd|MAv0))0YqytU:FLXF[x6f1
<6bDcc4)`uxJv#OfyD;@`,o@~dySe[[eIMCP*3(Vs#p5vY?h1T9_qfh$>QqW|'96UT`;3,FjoIRdc%[%ms_3]F('0O=k8L1S#J>q1U;9Z17.=Aifjdv#vV>
Ib1ZfKA'UVZ.lA1Y0U*oPMcTc||Ng<7)>8*7uN9@np|ojeMf~5]o3hW|/G`Y5Ft/OE!CV)e*@kdb0Fa3L6i?TBF@6-)3usY:~Km@_8(z(9rM(2+;I`~G-Xa
2i[aRT~>f-rJJO@v]b=/'f1,E>|<Ep.3JqZFaTp!cq&t%CDVXX>J.xJ#]rBnUxa[#F)t2LemC$*Li8xZf:/kV7jI)2Ek/4xPay(83$LpY&S_sva5LOY@E*W
Wtedzv?(6WfxK?F7p5L`WYIW:nTB^.+^gH6]O;;j@fL!o'T:N'd6J7;Qi-6c`5x;JBh`$?%B_VGda+ftJ,KhcFBK$Exw&`>iW_J?=Z_k[aP7H8S@8Q%O?[V
@Ns@m/jnd>Xs_<T&_6tcZq3f?NGJNL>[3LLJo0rPcDU9Fy)ocBQujIDpMtc964L8mKDUQzDM*8T'S|MpK%&51C*K|Srt63yu<r='xjq1/%Ga`P(:zIm2NJZ
~a6ZmBKF_>G[C?CzSf-f>QZb2HapZR4*JBjK$|#s3?H!d,l[3b-v$/OZMX/&zLy>J0z6EIL2CGrl/NQpX8)pH_P9h7p7@:+Y)3<r,.r15MZhH<yFJkVG^Ky
#IaA&pC?S0p8(xN1[z$dKl]Zb[4.i2PE>v4:2%nF7@a'@^kvAt~OD|5QdVd0rqTWLlPT<J;C^`.?LRsm(!e`t+5EGVQ;U~GfoTRwuDmuoKCMHCh,$2Y!vC[
c+HP$oI6`1K9rWsRY2X1*ac/2v646do(/A$(h^*>VSOqutI/Ks'j&(FLU%lpGELP3F2V/Kr?dqnq^ZK<)Kx]97MA2Qx6];R)!1tHHJyyC,0ln:#7lR[C&g[
=U,~Pny;$2TZW0VyeMVzl54ZP:|IilK=]b]mXfPw6;13RpEy!d_[Ku'?w6t>;`FS6Ofm+x?#FeA1R4As5f,:x/Q+@]38-;pk#:$pi%a.b+u[Y:r?7J2ZvE]
h/L;ise5;VQA|P_7GoD|<DZPz(Sonb)!,JE/rt6hmWY99=crHUXddY|dz|Rsw8Tq;.IO#Oin-.kwe&RlF4GkTKc2pWJ3<*2#1i;S)(UpG|^b[jlTSn%Nw[d
Yq~L5xc*+?o]xit.VFF)IXF?uN:|^Em+B[M>@3P-ijn~N]Qw+ENL@wJ%!U&!t?S-qg>L%mo8y-[9GX`vS[.B=]3<ZEH&cs[3a%'e)<IRcelxnzzrc-s4KBZ
0a1Aio.f&re;1jo#N0juZv~g_Hl+Ox68yxdzyB-.h^]5.#[Z3nWrW;tm^e3KYR%KS+S'4XgFKkG[[&tn8~DUnyH[;1H&(Dzh#r]i%s^WuN4S&y*DBK3B^R(
Gw6*-nEw1Y_j<*<8qG72*PyCn_|O;9?%M=#V_Bq@[?2!p%-'~iDn(>_)[JLaYN&c^sA4l1$W0#*DLphhHB181gu^i^ldUh%;j-QWWA?Cu!|~[sU88)T-o9S
UW^<@l@&/_m-*CTjS#%9JM:p_aaHr7l@3cEziLRLr!DiAY,'[R<yxbk<@a,f_qB*sMV[WI9[#lYb0T'n;!)d~OXfhiI%09yab2`q@)d/Us[h*G+[_2?[rd=
7z|10d.y*gY3N3Dg[IHi1+iEh2ve+JNg+jSPR':gU)Pgo+S+PQW(V)hBR'82l[Vy5@H$-OIW?wZ3Jj'hWb`!cQYiT#!UTOL60*Lq!;sxU%5#9=|NM[o?nlU
8>q1oQs4VJ9Hz_;I0(DIPaKT:eBT:bqC0o1YZTblKDe;5+Lw.J>v9a'2AQM.P+)$s$[=]=q'4YWBpx&-_Ye,EQ2TaON2ZID-bE$Pn1PX_5Fl?k$X[uAYrzU
W_#lJfV?7F:35Ur>,jkO~g.(~*#m>/dYAmg=QTg,qW2'~(RD)A?By<r7-.RXVY~xRQ|?9D`re+7zlE4?mAhd?4h7W*ZLx8o-$:7&!H,Rh-AZQfj!-@^%6DD
)B.y0ZXtpO+;xk,S3@8w|0mN4e5<+Wq3<Y=)>2FKAD9Cjf'#8Mx'>?pb*.KgBkn+*a`L3uOFG.NO(RWqKjb+eNLr%P^%]5'Kt.W~6g$`Rav`<V~qz.>Sd:_
/YFdM~x6b4C_(bP(?1/`NhZN!~(8tW/FeCX3&aFrY4JG|]Fej|B6$KmBRjcnV]/Fd7E%Td&=is.$@~(:i3c4DmZyuKDlQF##5F~q#nzFAkD%or8Bd!B<bhq
w!4q[_+joh%?.<+z@d9o+d=vSyp_|:UB%00'd-O]C|#B>QbvTGn)=@A=S4*_7?C!lSYg0[JQ_0r+NFM^d,I+.uOFt,;;R$0#_lIfg^/#O62a.rNrx0dZo%1
&R+Go[,KNjE&Ak!l@vMZOV|zvi-`XD`WcQ>34./T$t`lO`jqoq,[6RA;OEGrl1D2k6ErTba'v?fOs.I?vT>W?*~S*aXzZ8q*x[~.0hsjHn,)8ZG|-qNF?4^
+KUEXNi3Zl,l~U3@a>lXQprM]:FSZ3jlv($,4NVg7l62w;^s:6)W(55]!_o,zsvKRzPgfqrlT_y<#Fw$sL<<aLm|=f47oE'$A5k/&$I6@uqZy8:/&5o(_zF
1.#syk6E=(p%2`hUCIrt<~aL5V!Bm6aKA`R-<b7FAkE~<M32ag#^UJBrJ%;2y(2N|Q!1IP-A)A[l9B:HNndnUa`P^Tv.LG]KzE'&N#-L>zrQX$y-o6Nx_:(
R1v#u`(Vw[vs@M>%gN<=v:!shKHQsC,,GOc6il=nlc']5PZeL7l;S8>d;vDar|ls*?s5]3Qe6B:|Mm&z%KTFl&:9eJ2_0O'v='iuzhtYi7!B<s8=wuDv`)?
5V(Y)T<+gh1k1b5K$hl:jn<<z:4Cn>[D@~4pt1?F@;LU6Pz_d9H=A@_4A+~>Na|APpg/SpVi_Gh2^~OO)Gh.u?C5f;16ZV`E?rUPppnU~V-CAey^FG0-Jb~
H%3b^hBDHMIo|7?Kquv0U<N`t5|(s(%X47i=zS6A0&)isq^eHSgRE.px7uA3:JKzhy23aLwBVjcc)8FKUhQUUx7MLla%s/A5EkN#m^sQ.n&$qvex:%/ZpCc
h8Tkm!GSGQ47_lF0a-hKdXHEzyy#Kk7li3=MNwSO[gG|MX>R$|j/9_GMP*DVz2aL|xGQP9yyNpVx0|<&gmHmk[5p;z$Mt!R@KGCls>479;O,7:*6LZcmz1n
GoYKT,x%d~`wt(,b#~hLt2-3u3oI~oE4!d]+8#!X$V29JamOG!1BnMhr^Wc*/eMDLI_u'pxX'?6LajFDn()U-o70-DmL'tBht>k:2Z,G5C`&/[;PF<H8mBb
(TEx|uXK~^~Ad]fqh.F:ClKbsE%*M'Jio6SOfmzy4?Tp.sxm&=p,+IzGwQ0sJU(m3b7V6?0;>qo79-qDR$Iq=Z@bjk-H]3w.Noqup2DD6/)yxJ~W~9L*e][
*%!hSp]@0jOVT*#Z|$3J!5D6M5|EnE>h?YHaFA9ry.LL0=wmYzpeWf<K;!PS)Q/j@@ocG|S8$ljk-V2w7FmE~+jty+o!-T&_e=bqqNG|f6XbBz(cW@7x:Yw
OM1j5(_Rh)Qo^(5MI!m00DOIMEz?oz=nPdnMU7//`s.XbPN*|<-CCIA|V02Amyq9O/qd0(P<@4(Sf(1^;Yvf*W/V4m=jnZ$kKx`$y9;e9>pr/]/T|Yv'[K9
nf.12c#CUz:4%j5%):lnByuzo]Vag7Nj0nmAGl$$-gK4F?mlo(Af89d5G_8q0=`]:ZkpCZaYTk`yvAb<Tw8*g+jYHq&'?$<9f;mptroXD;IF0Gwiv0F7w~?
JKCY/>in&k/I#6Q|-cafs#HKW@dxKFPAd2(^$sA+7i3^2n)3F5=:_[QLRXJSs;AH!Qfk#W3j`MbqBrM(41xSu8ol%hqV4]8Z(@]gr`Pjy)t-?]]F74f)URS
:DTk+g!;?`SBsd.9iN,Ab8B$x6`0W<CzdvdwVCY~[p1tJ8`+tsQ9z%s9R%1M%d]5XHdtgKF/|[Dyn&0*Z_bcXj/DR]Wx.-.dnmBwf(CK=GyNQ1Vwk6?Wiht
=R`/OR/E%8UnpZi3UD8YHH.dA?^Q>Zd)_/u3*:*~co'@K'NRC1.E4hw_,hrs=7Qw=%Ka>9G7M')~Zc4?-@Re-A2qR-YKoDB<e~eC8Q1O1y0Ytpv,aog1<^m
Lh~&d<k-PqC-MvC:H[3XIV,Y]PO&=((HF&Z.1YSx@+mjdPM82,<Tv2S@LI+x4okW'ubBIRb1Sp(bt_LOjA[8~7ByB)L$*1Nb2/IX`U%w0RG8'PgCny!Bd<Q
#f'#vKucN(sl=k2FX[b9zNw0qyauEyjHw?XC?9|w.Rqv04&(6STIV<J2MEJ>S:+5H88r]EK=POD%86$5~o_yXs#=O+8D_9YBt!wXP(:Gi>1_-fXM?X~6=0_
Dq;G3&0W^EV%y;-vV>qfP,=q,%W*c^G&,Z>VV%B]A]8cak@1O@LPCuGY5<y=gc@(s!uuB(BY(u;0G%/S];_Ta)_?=dOX_9#/J<6io<gV7BUE9cvt&#dT%o_
uk;GDGpb$ZyL1$m1`w8G<1VhsLhKy:kKmE1xX*2HS+dD3xo0KlHtoOL4`M!(O/6j+%hc@_Yom-aNT-S;5z?f=<ekAS)^%hUIAMo)6ObHxE8&q*2z|i*gNJm
1iY4toieez^q&9B]-8I9u4736#T((kwAMDt*!1#;4Fp5q<>Tv)j^i3Z8?1!B?Qgh~G~#p;|nY-gZ`Kg#Y+WlxA;)6fNi`,QZa'cBbR=qD8Heo=V.QD>#a!H
HJX=z(2#yN#DAOe`ka!Ta-.~`/nfA;lO8V^&xqX'qd]>~D)2nGGPaN1PXId#xalVa9%Eg#H>W,Z&Vy%=#Q6wiLXcF^vmmw9>5%2$-!w@D-mAn))D@kGngd>
-]NgAaLg>n)Etl:AsCbXTZI:Dzz9Qw.RU5_?^Bs&okwVYK7?>6]S#=wtz(y-G@9o_1Obe2v5XmcVAYaxv[LPu|f>L&)m?%yMF!Z-|ad2#Yjq;~5gXG5?vZn
cw)L^fb;=>_*)Vrs(QflW,p<*2.1I~w!|h$.opXWi8O,S_HsE_'dpn9T>#0d#uzIq'=EG#NO]!>VYK2L%f7F3RrW^hpE0XZk.5o)3H,S%@B?*XF3>UQj,e|
vrd5ADgUV)I+SmWYx^&1~8;aLuZT+kPZ[,8/7+`y_,`Cy175j36,2!:mqzy?0.1%UpM<SlYU5.w0J<VHH+WwO(%-mU(u)H+]R__FgDls3@duIc6rs6;~DXG
y)rie[`9~.jh5Gf@vh3igy/L4J-cAH<hd+&qH@P?C+HtSwt~Wa&e~Q)eGCt.S:eSVxAtA2GMJ4kUu>[5t?WYp;O*0%qFEX=T7.;*A3B19`_BGz`P3jZw//3
]=SNKM;,La'2MqvR3he>9|I9r*yQaYw3hy=RgzTPCjun]es.z17I`:0W^.Ul[$xS]54Y4>,g<7k+]5'!5llY.#'~]5:4Mnq'j&;FZ31dFFw>!]xz#3q6t5N
%NSTVdf/[SUrJ,ddoM3OY8OG-x|e@NQNM-*-s7E#|QejTN-1cTs#N#DxjM^BN,GE+^h90ET)SG^I,lNBrn$;x)co)1+pR<#!M<>.#bg*puJF~kBZH0$%5E2
B[A#XeD%cFP=&sS)@slt2(2i9gIaTWBquVvA5eUc84Q2QQmq.n^@tv6?_8>xr7fyrmWLFX3#S7()B^@klb?_)Q1'nwAN&85OeB8e#GVb8ymXvz(~>5|dna0
A'BPQk+PCrTowsJ#DPZ.6ir8@f;R/42M<wkh&S^OkjdEYDd<%n~xg~Fm,VWi*Euwc3#mm'M:Kde.M1#>#P![3[M6sO)qkq0M^!p[N%(v*c(RBR)aD%|)Tc`
O;PyELaG~V-hlXo!sv!N9XF^M#6awG$'OPq1ljL`Z?$0275_FF]d=^9MtXw'pm,l=@VxN+_sx[plr3yh~>t8Xh-CC~-BxJNHTU,b:hI%y89Kcwxsl/8V>b[
XP(9M[Ge$B#N@B|B]Jwfhqh&&S*MY?NS>f;dWNI1Y6R*xQ^/%B(lkLAiC&EAGD3y:uifm4(op]T:B[wY?J$I*Cp=TgyGwjeWFZ^~03t>K6n9OsO>-ZiA+To
O.[HxQST'^$|z(F'Ai%f0GOBz1/K[~8xZ9?kTV1-yE<F^sYNJ$cOLQOt:$5%eiG]pqytG71.!;7Bf@8ZIj1eYrsTYMTsqvTUcYG*fWpMUiqj=~sb>t3Rvh0
Xgr;L29.JiA3rk2:cr|6+4)+AZT9[pYW'pbipLW1dNs!k1=zgo?'*]~_mpd_nJM-MCmv3Iiki0_|tRYu.$>$!d$j@'JcHoW4wUbYThLv`:zokdCqK)yBc>8
zJ.x%H]i)z5y@~6SGqQ>APql#[^;+X#_#6blCp/&e]MXZ3]7Vdpo3Af6@H<7.Ax+G]'[NWHT4Ja^/;L-LbjlmzM:uUVsyLz*'>[00x50I2fq2d+8xIx7mc8
;S_,W_owSDfGGo;s*':U!4N:Lo:J'~iqv*)rgc$UJCJ#Nno@jh*Mmu=7h0ngP_zv#R,@1vk?o9GQUJ*&O*1Fz&ggEPHq9]([lkO>1tTKs$`mT|dC(->uT(&
ZO[nyjT`p^,]pU~,,;9v1oARQPY<@Y&hh~;ee([sepmxIx]9fY|4u!yQ9v9<GS-_OIS>!f?4v66t|#zhnTmxB5_tL&%n)POb3Xuf=pp/W$/mo,/0jiG6fD7
n4S^6mISo<.IWL7$W_JWm.HBB'vwO^WTswWZjX#F#0<e7QG,_LK][NT5eV^M@QVwu<J]*.^3a!BV:5pZKW':#uN3%,g@K[Rh!i,44~1oHn2;;r4ZAzW1PjK
/;H#Oy.a`|^YxP&C)n(=R=wcT>7XQP%r`O)iYd#lT%?Vp44?$F9S+MLHSb$L:O~9xYmawz7Q8VHv4s^l1F/0~O]a:Wi9FBjb>RQC@J3zC:C~En@z@RNcomm
*HJOsC-n+=0c]:js^$nJsSPOt5zbV39L8wG/ZOE4Oi,(0ir6huzZq5C$Mb@yk`JN;Ht]uobKL)/@N>*VePxtd:f*L,vrX-E_2D,s*X&yAQ6I,,'EF>.~Hhw
2ZT52R-<3B~$t.=:=#D4b$!/nD~otGzNC&=3zm&8j;*,o~vfZt<m9GaRaLpjAZcDG<Q$wc5;?j2s#CkP%Szr`_`hfX`<%r>l9q(k0^a=^-k#ty|F|f56ZDa
AW6Y;tl>%|&kJIZ.J/U?(w)&ksgar];l~I7.-&pmGt.PJbyJuG@3iP1R_g?<3(U-]x`C#zu`mqYI2*/=#8~&@H~N`dK6KYw687vtY'O<+Q[c!*$D~X>'pyP
aghEG5soRBtw%LLk,W1#8)SV%x-b0;tS0K_g%=KHmLi_C8vEIlj6@]7L(&9'K:<3YcKz(|[kIXz$fxz+=:n4Yce^7rA;B|t/^dnHiUX?$z`j%&CvS^#K;lo
R('R<#~z$wLxVGC]QvRC~&a2)2S8LZikvtdYz@*3'tS'e8?xt&`?#|O7L;t-dx)8w@H9xPI'<><C;/3b^tw0VBNy^Oa,l(x6`*~bwMr6F&)Q<KLy|`5y[%E
5zKPf56V?Wr;hhQVrG1xV0!47Y>Kt|VKVq3s^#63/A63h0(Q/X3y0*?.0zjzu:l`rYrYOG5DSBN/M<2v+__1z_&!Hb)~Y2hg(*=AryP6Rz.$Pk-A,|n:)cY
;L)VU1e)s=SJ0PFl4fP;d]O,/=rWTua2p+8p,#6HS]1_(Z't0kn)eR)'amOa37=`3-0$.|J2[5b11_h;_RJiQtVf_0zQ;*l&[%,WE3+)0lpcl/5,>=Cq#wv
9abAllhH%FXb+rZSMP!p6x?.Cy4Q&@nTx/~0Q@6|uVsg]ZnXS>3R~*df_evYt8+^V#U[i+?nB-CGzaU6LmH9TW5WHS*]+7I5QGJ/g.^mN*DuG8;jNQCY%IC
CCQsKa2EQ[ZZrf>2;^:._Tusiq(K/^Y<JfhOn|f%$T7,+?C:D@BD*Re>;^LJ6>y#ersw88%<<w~WUQx/!qVUmw%T,wY_&RjD^o2j=6wrW-HJsDBsmu%G%]f
Leq6)4xWf]RKZmf4$&G(XL^x:aK9:=?K'?vUS_A%yk3-u~z5Ak]t2Qr1rG$iX6:f2H.1QUftnboNEPYiDk1vhOA<,m=O&Pd8zBzt&pn~f.?$5J])E?&`jrU
o=|FI&SpmTwjoS?72Rza7=Mc+RJLftp:?v:Hh3>OR&%$TNiYAY1C$lZ#hBb~.@]S#yy-#^vK:I?nx*~&#nG8z+ziUmiu~6b@[=.f5:B66z<H8:^w~OmX.y/
&K+OT[_RUU!9Qq~[ysAS-QNkLf-icsaP%&9YL]FN'tHw^5'.W+`zJ|xLGU_lPgK;XY3_EgbW&`ynoAvU#!Z~l.U[]aHWDMTj7.OoNR(7ddL~c^nhSkc(Gu7
/YJvA<D#2`C2M6Jh%P_&-FP7n5L>G:TSiw5(2KY_P>Coy:jngs45dB:FT/Cahx_a/J1E;>A-7rNJox<8S]oU=Bm-/CCm2'n*chRD~$hOpL/I^2i/5D*lcIc
rdN&5k)PtWt<tM*0;oW9uO'<v`C.&jNjxq/cn,qFZu$69L~E8S[:ztt+F.YMOgQ#iDiShM)09S'p2s@|qoJ`IeG#TC#0U5,[BsToP*Azx=~0S*dFlKgyEUr
+8k.s9|GqMCh3&-W+ta!<_P>/b+l]!+6jd@Q;,5P$_5~*G>Pw.D*=Ne)K&LY!S6U*>i'6'/:oX'q?|W;ncf-~Pt]rdy,Aa-M**aTlzNpoXGu[3NB;:|`@rX
P4`V8oR9R.7TPEdV.]Gko-Q?Gfe:;V~)Eau7nt5zS=vZy)Pjg=ENdqCQo)OWJ1.Cpc7T$4Nt[yKU__52Ib@.L_f.Q64sM/URI88DsTFz3^o'7n_X~&ZO)SS
61-JTa(~pgtT%Ew)!20jj$N7heFiZyUoIWf1G;1^qhU|X#0,/N@~m1`zgRP)K&(k55qDD(*pE3<[)V!!a.!5?ow|g=kkXhN;WuJ=|$b;xbWw<5o_#10<,74
B,ci5UAk|4:r*&DgUTx)L()bZsME*D$wv']INd%D*t<vox@?2m!DlPuBFA_F,USWFUj_$FT^b!eDV5Z6PWTo<pgzuP*5HPp*:#`~W!3h=gv9w~s,jBqh$HN
rY?rL*2Dv~pUcU?Zd-r1p%fc[s7```Lce+iTlFr/2xq$U=Sr*t6yd$ZN1mj'VEy/;:fL~iQT&N_NplLjd01O:F0Kgr0Sr>QuP7(P3R(1%U9]i=4?P=tm_L3
Wn&m|ElF%PPN%2$)W'`]?N_c'|,B=#0[7-H1MVCu5F!F&.&]>?/hs0[^F7<-mb0H@h/a>YM3@k5:jA(%vUdZwmf9ioTP>QSNjeLoz@G8=lq$;7:78e-I[0u
sfer@)Z,@imD*@N1Viuv%&r/E.&N]//D*NCs^yaq3-*k8?ke%^N54)TGvwuk6'p]qUxFcT=a=4/vY=,-_)4yCV>RB#gYyX,c/W;gL)'d3IKRq>.Om*1og(1
5?V<Cg#w0`Q.owV4y(]_np#'B2`@@).]]u>]L#l9kw1[bcV8#!B]s[auj)BOhdLj7bP8b)B+?Zdh3=AQvhy[.Zc@9<<o~p8KG[rQ*[8_f8LU^>T0aSTZC[K
VO~MiM~Qtu;Mrn,8mB^IcmA1IK1!_S`hcVKkq==6#w;D4!~VQDVM<S(hJ`4J_6@>L|JnHEuYVKv3zx/P&c_'Q7*%!`'V*:G+G:tPFVr1JKM;##~S>wg;H#g
(Q?qa-:(1,>ATVD/6I5^qd&pE;cH$B3sEoWc<#QWaqOTHm(P#dAIDJ@wE3`-23#ia%M*O-50cW|i~$Dks!en`xO56Dqm._`;9Lk@;H6D;dQx@A(+&wNBp?0
S!_)wxLuN&ICa:!!I5_;a^+>MPX2=asYoX7lW5yi@Hp1woE~(Fc6C$'yT5E4jOX5aenyzz,+~r7CY^?5%a`r7y#*[.[hTHS&u,vKU;W~,HO+:i,im(&Ma;H
q#t-v@kkU(_*;&w5NsxTx_e8Bn3+Bm2Tse<F0.@_;3W<'BA%[m5@DK!'NV&/H`~]/3qtbUS3i)~,P5m@_@H:GrI,?5-h!Wy'nM^2s*pzB:g!7Iuyeamr)Oe
>6)|-[ajBWI>aj^u=7hcb--SrY0gfFEl*6p7Jni,=yt.Kl^B9%2hVe1$W][sXq~bFi.FF>.D'pzj*npjOY+*K60f._6Qe^d#FAaeo5H`a@WqRV8|N<&np9!
_~=0W.z1Mqt*>53t%xDiP1wc!n`*RvH1wD-Fs+,eV]S]gut?tmTgsgC^x.06!KXDZR8[WiU4qp3UmAzl_6RdRs1@)L'UA0kIFRqjPMFUPRK:tY@*$[A2Fpz
'r%Kg71r&qj'PuqQ2mqtjG=ShDz53N?KHLS_qQw?ewc)[~FdY$N^Kq#j0c(lMJ%[s'^$/I*TSYXR'o1Z20|3@N+'/W+7s?/9!S#+1f97=~!h:&x-64'9$9<
UD3k|v:D*,:C7|?BUmrHxbaam~'5Y4DMS7s?-iPdZvH7NCMZ<jDZFbuQ5r$3-N[yZ7##>^D|R:5`B;AY,Z@*V'muks'I[I].Uqjz)#[O]m&I~9PRK?P_mOd
['%%lv.fgI,t,Z#b~Hi<E`lude/DX58WZaVNnk~Ljucoq^iw7lPTbS%DQF^Sq4TZ[L)ZIq|e*waEvoR3M$2v%Zq<h#%^vB36f]j'ri::!*^,5P4q9($)YL8
0qD%H##P.$JiNe>VXk6eZ65_361#PJ~OEaNN,=w0(;tNLHd<e3i[YtNjEq`0`YB^<w@mW05f+k6]~VD+]cUgv]TX$5lVl:5Z(Oyd$`CbhbejQ-LwT$?Mjb#
+NMfN#f/1>uiU]+c#GC[_dk-'HMDGZ-BkH*9R#lIb.4pt7IU,q6SyIBikRmifos'iHfM|-Ho<~s,Rhb/#=~1~AxcRz91]EammjM&T_Jgp'|x3wH3|q1d.[K
(%t'vi$m&sd]JBoG&PTd7'Y?_LN<|GP*Y:gioKdE#?.*O50v*-p*qYOlj37&z9X*ZbvjK.[;i/)<bHHKxt%aINDT)lHeQ@FlMCAJZIA-fXpe$]mT[-,oZ]P
MPo<-qvi%]w8:A|PAxf1<Tr;~A~%xOB*Pt2>>!Mh/,B.7raAX9h4+6#'0|'Cpo1xL>L+)#)1')F^ZlT)^']T*PB[>u`|T&rmt:5paAg03ATP6$L>h=&'qDV
-9T@ennqQwHqWm5f`ctCLc;y./cfT'6kHN[?)`,Kep5Vpf^o_CG$blaXY.-,K,rYRyoIFV.|VcFf33bUuE*4dDZ#.PN.CwK&YrAG~5mMevMTPrKMpv1-].F
u@CG|dKEzh566xSQqg9?y.MpP[D/tut-SC/,B:oByXbwKiOT#-epL_!rKD3y,Hsgy~l>Ah(.GCeLqQw,=D:$t[|,$2.g1b`r>E;;_8c~AgvgTX$~f@)?;?A
K.s)OB_tFt`s@yd^2dnUW/1~O+b_P&4)h&N69bIoFo$E(un<^jy:h;*32!U8=iD37'S(;bxIV:j;gdFA!Yf6&w:M-WAQ`u/zq~mBA[1=$(Ct~U#!A^g$y|w
W`&,bh38A<O6Z_2Y:?V8|,&44@dGFuk+>6j.QEk]'X^!,_u|T6,+<iu-2g9UzU=<Q2i%$VbKI4Nx]by1gu[Z;ZDYGk,NY@y3jqmU781d):-3(t2UU*qA0NY
Ze8Ad^4X|F%YRb>NCHye?:-k9Zpv`.:m4dm]SxKF'Ur~2yPdA]0<Msc&94)J@M>PuA:Oh*501GctVcj@-j*t050y<qvMP=y9],[0N+/n`6'i11de@`Ps7b$
2UXe5kh%skB=hrOEax5<G5^5ve<r$NtShe/bPL.3rLSHk67%_`sHIHEKs<=k<+q.1)mgf@iZp)6AB`/83i%kpg78IKvnz6I$'Z#YX#`Z;&d(6)2Ysjk6st>
jpV=EIYlQ=D<~':`<I&~ow[UL|feD5=@qiZqaEuLc::z*GHWaM[6,s]AHk)[c?NYO1Mf]nZM&'K6%+h_^N'uTiwo!h]@+#)?:es3pJG-'1_+UR^`RHKyao>
[w2`?v1$&8NtoBTf9B^<KyOt]bYuwnL[lN1q3*nhF+|$0Uk<_!3a.z6WBzi,iQ/K(-DYA8n?'Dm+NF5FPv#xt'74I=Jr=bsv#%<6LCz6pIefHq:?*;#Qs;c
%,gb'0j^U?5P1ZW)+(~|vRKvw!xtv]^sQo58l&i$xe0.W$ZK%LMpZ3gXY)f4z^e%%5bB!QD+zqndfSQ-@;6IR5lSij@/Xg'k[lS1[SX4.nm@`88)[bQroqf
gJ|D(9S0zaufRxIb!/8GX*94T8ZJwVpV8.U,.?wV.oB]Aigu.O+6[;>$BU|j.AEIL.iq-2/E-)tXm>]v_[G@.cb54<pSBwD^^<f-~:hxS!!.h)8eti>-oXZ
[yRzR#ybjM++D'2)5R`OvLDPDwvRpQk1<BuHMwI7;,H&p..yx?7h$hGxv4vORWtClO$'5ckpo(hfvBb:5(wlS6[~:Y*Bo]t|FAZ/WuF521tFA44NVo;.ZL!
-DM%Sl2(ZNfjv|abi@1r+A/G>CF$]>Vd|upN@lq/tu~/bB:|7|vEhp+~|*.Eb|^Fxmr%'i~4zR:%Qh$k%X(axmm#5R3=a!/iRwC'o#0fDt?P9F9bz-;Pg-A
J<B=IR]<a9Xbo!M~E4Un/%u`x)*TkG5iEtR9-Isfqy(/K7W&SgDK]`#u,Q*Q$E%nO32GH>;'2|7-V_X|^dnn/%C+MIjP.`ozm|9pRN>C'Y@+9)cr~;:iDU,
jQy2kq+nH8$8wz$|(9gFK5;R!mF+!YHh'&wqfu:sY9=io.Cnujk(.3-7d>?gh1mym*el[:SoXQSm3xd]$osTs[3&sK`F:LURfiGyeP'#U0I^L#z~aB%IN>E
FV%!^4A(HCWjqZM9!~PD49wE=Bl)[UKK[MC'ZH6;q4~mXI/AZF,Q_LWsvacZxSVvKp]v;BuJKc*E@bLV^*)G!77_>PO~R_s=7'[gb&/Oz796v~JR2]xEs@T
`#,r]mt<.<*/??,TP'zi~P1%~Xvu.053cYBQ%[3_p|sk&Qf=VNP_cZ~mq/R89U^(4ns1F:[GF5c`Y6H#+8m,I;i!'7)Psn7<U:=pfJUxkBut255.4*3YWkO
5_@GxNirP+h|)VO$$,<9~bfxNq_Cgh.YBFhp`?<Q84oFm`I6mwLU^Vb]]p!xQUrVP9VmlTBC&T.Ff|YMtjS||NAE4C9(,OsuQn@0]I(yBipSwuAJ3!$A.49
pCcOZ7jfJ72;s1?f0)P3e]|dp]&F4KPM#*:l2D?'7|0Py#Wu53^y+;F$wd|DU^:XbRlo9h6?9[v7|.Ry'$~4dvLeYDZ([YaI'!@IW-#A9ujI!cA+PK?V)q/
ONFgA6cG9kkKM<nT#,T_rkwIWjj|1A6zRZuD]nQuzDSgLh&,Z%i`o!J[GVH@`YdeD09'RsAZ2]=.0Wv-tMUu[O02v=VQ9c>W]$:@EKa5)1hyU5Zg2W4T]1G
R$obFbR',/hkR*I|'`^uhPj8#nG^hfB$Az)*zOE?vGjIJ~I(_y#5`~7=qzR7k^-BnBVyx)T5r%*^HF`PzsyYO|Bj>0xi:?'8p+@%itWTYD;L4/Hcm@50BAO
hj_aA[zoe;8^_EBo@a58)EA+`Ik(7N5uymSXpFaK*G=)`']0Z7>xnpr'8!K#jV,$0a<|QB7q!<RvZyI9<AoCU0URw8'7:>!|>*xJ<9q.RZbby(WD-[5bvy-
6F7Xv*sLJEN&[E([:%?X`-`noQ9,T^AG=M4(*c_(-Fq:OlcfSVQ9Jvpt6/fsgJ|MuuN8^2ppcgidliu1haP*VbK_Udr]'>]Lh6nZ@SQnGa*%6LCfkOFZ[UE
Cu:?EC8aC4rj;n(e'olsYQWEco.xO#AZ$rpw[#L?c'u#q,F!J6CBEMc#KA3V7[>ole=lln)j-f~b>!R10LB66A5+9&u>%INok%:U0UwbwyI<drVwtc/oaA(
3.[rH<kpwWU+bOc=Rpx-p7=yWqsxU5LVgocTm3='Vtan0]+lk1K!D|g^x]zw31wdGEm4vEBHBS;&3DQUV#N?@[h#_EdF4=<lM>%a7yrE^i^L_w>d&Ik~Wk?
+*_e;H)1.ExAgj`Naz]m?0#6fR2z3*%Ef%HRLhkgZ7Oc)ro0%MCtUw1fS8fg']q%ukrTfW,Q8Q-JJmfqRV3c(qviiz[,#pU9xt&!Eh~=5Ox~T(:v@0[WfPn
CgYfy[8-l+$ij:v:O6Kkaj_nD4pV6wp@H=,~e$$uCxxuq!qG#6m]*ERqqYK)ftaS:PElKx,w=WUHTE`0Hg')X<z&N|h00I~+!1,(aP@O14mdyY0E1pt/Nyw
LQ>D5*ef@(m2Rp<!5zU^XlAjsK!XF^fEBD8*a&402`0/P[o(NP`yQRh1e8sYjok/yidgCaLCmjQTxmR!sKJmQ.jHG`u8pZWw9<h`jXh'Y?$%vWe[9rUFl^:
s%Dh1cG`qf-WL0%ukk1~Bmi*EN!cU=Vnfvd;--jSop^PN)4=G|~932[z'1-RzUF_P9A%j:Hq+Nh1|AQe3m2A.:%h?bAs1>3H`oWJ9Q%hSavqs;%1b2gz?CX
eQG53Vx'!,V!j)&BO?$xzF;LI?E`0N&XdWR=|E<k<V;^gRvkcrZLuV+|2~-!J|VEVDCb|ZQ|pep]LEk!~+#hU=02#L-e&|(A*l7?*hU,yvQ$''AsF=l?aA)
N/frej6]Mix4VVs@ax&=$*?2qF1b/)H-+WIG,nbri/H7?._3+n$+6Pd+iSgr`2CUK(bowbgc(-vz#(w;s@OQBBmLm9kZ0Wjb(6y%0=sUPecE3/Pa1ZtSwg[
Mp;MR#K&O0?mBcs#k+o5V'O7CjU2?_K6LJ[6(K~L_X/^F[8r&A'p_2hfkg~trcZjf9G-kUv6k$yle)_61YP#'mi<1&FSUmF3FL#)x)Ip)*HX87*_'-YU3j9
5[R<'0O?3a]?.:Y5J*UKM6!3X>ryk|kGF4w14p$s1]m!wR-kw9(G9]KtgHq>J?lkn%Pacc).]]*7'c8##!bmwt6amZVA2j?04emHbu9B]9@^8x_@%Wjv-=q
2;faYNu?1r96rZ]1dB>BCn<A@V9G~t`0HGNK)2^psgy/~Dkm)H!J7j^eDK]S|2m3RC+PBeh9NK5KHsHVvCS<+'f?e?Sx$DGS5r.5!F7.R6sV~4;zr<x49Am
4!.,CBvdYVfO7*|#o&9sw=X[6:b`l(Y'UAuFkJJy*gFu_',ZZM/i-ExVQn#w*|1Eqe[^RkEedRSy[z`MuUAZc|N~y&4uikgjA(a*k-v525N~]^)ZVTp`'lW
BOGSXFjfO^&%NA>_S0pKO4AI[C2E@K@R=aew3&Xp?5At3~RC4*;PnjPn;C,@wbx&!at*UqVkjjy~(+%)m=hg6)Tv[uwc0a)0nq9W^s|308Uy?:|Uq2bx1O|
[BdvsVem=1-!$]R-bBw%s@bL3cG#Cu#bsHMKdT>xEsfg,(vVzLeD_e1x=m=S)pr#]O'WZVxm!Y=%cYXCv5oPvv):YkTh(qFQ1sfb(9jf[b!x_zOJA%/5l~~
OVB;E`JRM-xB(ejEh1L>0xku9iz~)f$@r@J'UySf|#MSomaQXg4Kfb2bV;If%_K`|_w>d=_HVx%6cKk8.ouE;eon:2usvb.%wO4xWT,^=ETHBdqs:I`]-$=
Ts|Uh|?lc6.?QTNzls`Qc]QkUh&lw;V[[WjGO0b)UgfmTcWRNFgn+uC?[yWFD*<p3i4$@JVc1[lVh7D'lV#JZ7eqKJU4sR8d(Xx3>F=zcgRjNdTvNxApqid
P.:G+r2M?3D(6RNv^_ONawtO:uBIhFr];NKV~96~$hiK4uIu#Y1Iq=gY:~(n<KvV9ag8GVOw!fyC?,ng-egC5q9*`;_AK~-x[)!n>/LTRJ0d~f-PO)Hd*Pj
`)/c~kI@|E-Yd2guDfm01ql;jaH^nM3IY||$>6>'&2%iDHB)H%5wNy32o>z:@bg3'rxfn6eevd>:8^(e-lJE_gEjgNbix$Zjqx_ULiIr1yU?0bC#`<`&^*&
.*j=JBK~U-U.6+k8G5si/~~4~yc?$0OllNU2'%J~KpGLgI8#NA,UtlLA'uf.8Dhw>(^$JH)$ks-E2Rp|mw>(SOc*!BO0P1s9C^&UaJi)$D~29gnHsk:R#]t
iP7wBk7d8<E7vF:M?8HrACI|@K1y0==YtJi:,CGOED,H>82:(j?+0fbGMa8S.2Vge,rCbRHtGL^N%;7It,n5PX>'/Q`c=pO63WJP4R5C[Y!PtW('IQ7GtNa
LAV!TcYi0XCXa%ei3^scKdk7>Hc7#a`X9J!HZ|q/!=)./'mcQ$(xbW:%@&1%D4,OU@ES1d6g_h9xn^yhP`k<:q+(k!yarsb0+Sg^,v,9=&S0lo(Ew3o<9fW
nb&T3Tb5rIG`8A_#HBdMUFgl+E^FVPRIX7/|mWZT3>0xu^o+dQNdXM9$Y!G8[x'[e!!~%e>c;^R3]47c^wxpN/Q;(U494vYc.so%d/*OG!2YQi8(XMC%:f6
OyBf_DPBlF#d%59e/4MT]tw~H).X,kv*R]h@#a<yTck&605iC0ER4V#.?4@BR)(D8Fam47(rdjF=ge9;.P+:X.%!+tA/NZ6D7I(F1fEOjUv.cOAP#O&^[NJ
m2h8#hP/w8IMMVtcg;h68qESKCWxS>|Ga5my'vx)4MnHdaP(=4v(#zjSDx/#jgw^$Z8Aba//B'%Tw^&&Q&`r)c16q4Z[33=f10q]/KV`Cu<=l(;K~)rFV+7
Nkl[Xpz6T_v#`.6!-z@h1BkZv90h@'O'aGY)-Yw;9/t]-M]gDN)XLaU9P'Bm,_::AD2J>hP21R^Ed,0uG]RJ=qB^fb]<fx@*kZpNFed3g<>;O_ktK$NEhT&
V;3opL5Dap)Y5/)3-80dono?yES'f-RVLqIo#*k18zUX1ZkU:R#]4]C7_Y~puUPpd6f]pyuX,tR:yJWO/VV2ilvE)qE(dy$6ure(nNRPYME((A$Mtz!$='a
zfei@eUp0Ku:jH#=A.#d<Ae40q~73%x]*`/-nc5|jnWnGO|XInPYGEt4:)ceK*d(vkEMObbaF$Itt)=g|##rL'lNgRPn<sHeZ0t*PYIaTi[3JT<ID+r]j<B
@'JZTxic_(QbjM,!|I_G/5^hO[f(tl,dR)3,+QZw8<3l<#afC6DgvW.AH/9eh:iqqm7bM3PxKFJVNEMD^^q&,fTq.O:=>FE~R>@BroZ^_)?2xcG'_C?[gGL
crAjDHb5R.Ts1?V9lHZ=OUY:=E$B05,*R5%NHM$9KiJV5hg,lxO=D1Gm;_a]@jDvD5Y#0sI1kh1,e[!-`0vD1g~)T#'9/uu+wl0dYn=VHKQch$UN%29IsD[
Ho?5b5bwmY`?hoQ4lQq*(?:vf'8ln`4@q,5qt|(vz[;1G0:'|usTogGrrXqtPM=e~O3LwDx8=I[NCIG@pur$3B0^%e>41;!/l>|z)BJg5i@4V+xLDb:/e7L
iYujz,TBR||Oe]IoN3^YJP7nZz/BNOG(rCur<,pO&?i9KSh:!!;F=7|xi5&)K.QKn%8ztRuJNNNO]C9=kQy/]&01V_%Fx/eUsKW|LC.C:rx(tA88-YnL7Ys
'y54BN+LHZ()FSs9g<F^/sAsxiCUN0l^G'VcA5.v?A^6Tq(,Be8y/JFrm7b67OI?wS204+zSZdyf1ZbUl*1V:A`T-QNPzpDW~+mW!zUI`[(P~fqB^;Mr+)D
B%U^mCH-TgGhxoX=RRe2IWFnGX>7xOxofW.?c`ycD7|k`]=(!=dJh@UBqQPMp>i.4`:TZA6G.sNV@EXIF#p~rCwugBR/s,yHggzuNm<q:(07G0Nb%h!iFie
]k@W2$Ma+'=Avu]+mUl;ZC_3'4EKX3,q+E7GYJD5yS.~pD3^VRCjLqX^znTX.-4T)&Egd.g$Bef*<8'_P%L*,!EGG|1vYb?BmGfs5H57,e|X$86obD07>M<
]E`H<X+c@OA*R-E4n6i(j`O_@=ZTeg`Z.-8t<7l,j]W16*A5I-!Nv<Be.fVnVkO.5;BDjoKr@FJ-``tv@B):0or8;M|KbA?q17rOFB,;RnT%D;eTs|Qye:p
0uKb]n'T4p+UBSHGXjebQ)eQ2sIutM+tyNk-W=2Bc6d&p1Y,$PGnzUQ'5Nv3p8*HZ-gxZ7ba9j6Hzv;Od5iN]heDt<#:vw%(.I&Z`ZT&kp~xsW#9BFn#3)3
&PGe0[zah|B8TAJXm[HwML'!C[(M$ow^$mVm<@5GhHuX=dRCpT[uqZqRO6OHYT`a)jb.4cz'gPL>jWrg)hXmD[c:c_O5]5@_GC1~z4|Po&d@&=)T;63YV2@
Uv?YoC1|1DYbNN+J1(qh_rg1#g0R^NQcOtd)pcQ-*Pi<+(^)pgMIB!T1`M6>1~.|A;q^vuh;M%,>bXZ0o`lsJCB3.g&D0.1y=[=HhkRxnVSxX`'1;XXM-OT
#D6?*2gU=0F!#UIN%e&cNjG1.HW0c(+WYkgEr0]r.UA-D=w.(ba~*yHvl6*,gAIfmFqIL4Y[~G0$z!b/lV'!&6Khrgulg@//Rn>OQOg17.+!?EM5CI8K$Ym
(7/R6B:eU*~AXX&*1S5ckX/cq$8(lSt)|e&:|DQKy9uQA9)!x29E4q[W+__K4:-r.r>y_mgbDmTn7y:f7WNl^!8$V?8jRKbo1pP2%Kaf!k9/5[5^USJ,>Mm
>oDmIRG~97En0)&7GVsA[w>;FC/*>n`_0]y9L(SS4g.7GwD(A9%,-+dCoum60Z1X86`9Ld#Jq>PbjV)(So)hO?+eGt%>'wCDic.^m+uvl5gvD,eXp1Nl;NU
<9&8|P;i(vE&Yb2kQ,YR0>;vowK&#p!DM)A-<emV`s/:2]U#7J.s5%lfN5NfoE5#eDQPSKq?&3*E%y&bcXYCAky!|~OFxlpr!luCMN1L_K[V~4VA-jq&b9h
@oYZgH70KjWotB|Ko`RTusU]W%9Ora&|4^!BkLjrL9oYrM&B)NY3b/|84(#YbbS?3Jp7Mx#=b_kml*_l1i?BJ)oX|IVgd?YxKs:hsh]HD+d3^0:'LUe(U&V
iFHz6i*umGxO_ZmWrEnN1u'Ar)&x?xT$T?w!(XNw<;Zi?gj)bi0_(20<%T-Fj6,BBTs#b$itL|uWWjfm'%b9uxGVo?Yae&=+!G6d-/mk]r8b9myw0ql&gh7
85Nut$vF18khO.P2lSou(`Kp?cv(u5$*A`)i<%qpy2K>d;e<JXi,v$=,$CLzI96o/XSB7(CE|=|zEL'1[)r1Jt><nXG<>?uFyqsdaGnG_+n3/J?h,ty0(!~
[y69RrIt^K=1;FU=D'#k@/dW!Uhd,F]1CR.[5CH>[H_BgOR'n#X61PybNvg%|2GTAQp_p`G(M,:qc5q0?x_/]s6%b2hA:`A5|U[&JJ?)L3b<18(~e;_4emT
]0Empd|hXWi$Lxfj)6xGC=#ceNf$j=vLJ9VZ0hq5689++jV'tMJ~!Kz8eAsN7$dh$q1.^l|F:#dI@5UQh4f;vwgefSJa+X;nWC5zF!31`zRBb<O3Kd23ZCC
-IK-bVX_Ul7v.OZe`q&;?f^bdkDB90U]CNb(Bkrg01*:Yz#!xFG6nLO!PPL|LeJ4O+=Kp,l.XO<b?j<<9&|HaTyU,lX~I?1j3Z5/';djj7)M3V%Pvd3_Ph[
Ce09X64,Z/C=T$0H+g/:iO#g)(X[nb|412JvBORF4]]+6+BF#0Kt3vO<i+Xog'7|`m9F]>?O-iAo2)y.B,LhnjqkDp#r76?J!Of8kH'B-EQV,&fU4_.Wz)e
$NQ;I7(eq`bMn9DmyGsteC$RTvx>Ajw?*tzvW/!<oIVM'c!RQ>86O/g_sG!|dS:YpNq-`E(5k,]k)F7(`4D5qUt!qv7A@3e`7@q'_tWJ|(-^%ooFyB2C|0p
5O;/r#v-/GJb%KCE[f?2c(Ax|a8dT>Z4PW8mAk0z!bq`!]A&s[|s=IMYpl#ZHc|'x),<@&pI`*4Tr<uQg^%IC>HYO[j:9wL@5+8r=8'yr7AbE7|j_OpAKGC
Ld3eI>SZd@~t-D./Slq9-%L+C5&Nya6I,.#6U`!L--TPRap^<`xl[`3Wn8t'G1f):t83uN<<^TJ$M0_RxFUNTZ[Uu1WFf.Zcn`@_kKqt=|i:zQkVs[b#Tc<
;T|JR@_C5;WWq|OWmztri;mbL]<7Y(.$n&'M3=@(duG;(Zz.;Hx593~E<IKROcPvcn'QQ6'WTr+VUL.4a/4k-IlFm9l+E'_M/6ww4Z'Wk;s^Anl-5(:67*.
Vf(Wmrmry1-HO/3kAhYAI2&fj-oh!nf>qW6t=Z;|euezd_ufkF()Si:,RllW.]UW6I#N6XN#UEYdJXXq!_A7~wq&8Bq]tzpy4-0M(?_`CSo471TUg&mf2fF
$&r6SzD=Eh!'yX]HJ4!;^c]R/.ftBXwU/!<e>>)L6-kDn|iIcjAtKnPV&<FT!wh$eI*dk1p,pzMkp2re!BB5Us:T7.3P_?^PPb%OjhLnc(vSI?~ZAcu!C#z
|-Nw`UxK|lS[H?@6!1u+i!rdfMEEqsQ]JxFtzW0/Ws+sG2LuhIlXe|KYzS]f#(WiaJJ6b/A1y2[kY[4:3>2^cd3o%vB8*MF_//*LGpF_))ocEDJ`W6WS0FG
Ukv2a0#O=l$Nn3,jcuUmTs>PVVKubWi~8ap@fAQO.D;JAT+<okVNxsb&$I/LJUt[D]CQ1'C9c|$/azO/$70pU?cE%Vo651P~XguXpr-`brt/otMCRz>Uga7
xtp'.J#kS=B)jyeWX-05=A-!CB`4B=+>~h_.=oOWFvd-FVP~O+Ey4?:S*QS;t$IsV''>]XSaj|-2Wu48oSo4*1WyfOzS|`vaF^7*e>>Te&`4s5.nUV[H`Gi
^jt$_c4)4B?EIwtpbeK,)xvxka(q.vM;5I#cP(QN`6|X%d1dtpJOIddBJb?`C(XxH7FU!tCx()n!Qs2tm7j%=osYwPWFw2XcI89*8]wC/mlgH`gy!v=CjVi
ce9[wW~q|/X<*2enk!~pw=;[o#f@jd.Ab0#T<ZfQ(TqFyw,&x@tY]L2uE$Z7;PB8m3xnkZ'Ru0HJD5G6%U|y_MqJ|p_:NOP,t]3*>iI%byxMpVV_K&6;rNN
yih@mK<ABu#!|wMAsC(O/d|RG$#Cr^Q1#$cw)IKUX.Pzk3'1w$b]cLtvS>hdC8V%gY<9*k>meBCR'ZsT9y3i;?Kfc4Y?oMlTB-BYDEz/s$V0&g:eZId[A/1
k_pHB|`z=3Uj75sq%kihaUk[rT~W0zR?K~@c?%?tG|>J8Rq2d[zQ#>[KrPMYnO<`Ua!!w,o2*0drKtLM7QOnP!yg/<8ezP'`#^?QqQ6t;p;F_84#/la!`Dy
1vPl')mt1_4?,]RSx+c^niaHp]FNaN)*^Mb&/-DXv`-Y(,bU&?M)g0K%=jzuh_5Um%*.A9,f-m4nEMj2h(Z/--I`>%+'s`1zplhmAS.eIOc(oLMpJ2On1L`
,!v]=(/Dv:TCQW?_?q8<ll.*^u~;%pDf'2&Vj/b>Bq=L~l+0-nrr%;Eq.h7lEUuYU`5Ko+;&kC.>~57lNiO#Fv95&mO#`Y2Qa71vn(*nL-hc!|tUG&E)sG6
y'^vkI-.I+55fGrjP~xf)jVPrv:ITb]2kRtr[$EVpE)Kd)Q#-/mn_#(^b6kxj_q2gR`fX<h0(BQ_TA!>tzy>wj@c,rU'>E[lN'[|8ORfD*yCr_49C|bI1%V
]1GD9qg!"⟩

end SlotLang.Text.CharacterName
